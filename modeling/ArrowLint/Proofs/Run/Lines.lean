/-
  ArrowLint.Proofs.Run.Lines

  Lines that no rewrite touches. What a run writes to a file is what fixing has made of the
  source that the file gives at that moment (`Workspace.fixFiles_write`), and the source has the
  ends of its lines unified. So the lines ahead of all rewrites come out with line feeds at their
  ends, and they come out as they were just when there is no return in them.
-/

import ArrowLint.Proofs.Fix.Rewrites
import ArrowLint.Proofs.Run.Originals

namespace ArrowLint

variable {w : Workspace} {mode : Workspace.FixMode} {s t : FileStore} {file : Location}
  {files : List Location} {paths : List String} {before after : List Change} {text : String}

/-! ## What is written -/

namespace Workspace

/-- The changes of `changesFor` write `file` once, and nothing is done ahead of that but backing it
    up. -/
theorem changesFor_eq_append {other : Location} {o : FixOutcome}
    (h : changesFor mode file o = before ++ .write other text :: after) :
    other = file ∧ text = o.fixed ∧ ∀ c ∈ before, c = .backUp file := by
  unfold changesFor at h
  split at h
  · simp at h
  · split at h
    · cases before with
      | nil => simp at h
      | cons c before =>
        obtain ⟨rfl, hrest⟩ := List.cons.inj h
        cases before with
        | nil =>
          obtain ⟨hfile, htext⟩ := Change.write.inj (List.cons.inj hrest).1
          exact ⟨hfile.symm, htext.symm, fun c hc => List.mem_singleton.1 hc⟩
        | cons c' before => simp at hrest
    · cases before with
      | nil =>
        obtain ⟨hfile, htext⟩ := Change.write.inj (List.cons.inj h).1
        exact ⟨hfile.symm, htext.symm, fun c hc => absurd hc List.not_mem_nil⟩
      | cons c before => simp at h

/-- What a plan writes is what `fixSource` has made of the source of its `file`, which the changes
    ahead of the write have left as it was. -/
theorem planFix_write {other : Location} {plan : Plan} (hplan : w.planFix mode s file = .ok plan)
    (hchanges : plan.changes = before ++ .write other text :: after)
    (ht : s.applyAll before = .ok t) :
    other = file ∧ ∃ source report, t.readText file = .ok source ∧
      w.linter.fixSource source file.toText mode.limit = .ok report ∧
      text = report.outcome.fixed := by
  rcases planFix_eq_ok hplan with ⟨e, -, -, hno⟩ | ⟨source, report, hread, hfix, -, hch⟩
  · rw [hno] at hchanges
    simp at hchanges
  · rw [hch] at hchanges
    split at hchanges
    · obtain ⟨hother, htext, hbefore⟩ := changesFor_eq_append hchanges
      refine ⟨hother, source, report, ?_, hfix, htext⟩
      rw [← hread]
      refine FileStore.readText_congr (FileStore.contents?_of_applyAll ht fun c hc => ?_)
        (FileStore.isDirectory_of_applyAll ht file)
      have hself := FileStore.not_copiesToItself_of_applyAll ht hc
      rw [hbefore c hc] at hself ⊢
      exact hself
    · simp at hchanges

/-- Every `write` of a run puts into a file what `fixSource` has made of the source that the file
    gives at that moment. -/
theorem fixFiles_write (h : (w.fixFiles mode s files).changes = before ++ .write file text :: after)
    (ht : s.applyAll before = .ok t) :
    ∃ source report, t.readText file = .ok source ∧
      w.linter.fixSource source file.toText mode.limit = .ok report ∧
      text = report.outcome.fixed := by
  -- on the files, for all stores: each file leaves another store to those behind it
  induction files generalizing s before with
  | nil => simp [fixFiles] at h
  | cons other files ih =>
    rcases w.fixFiles_cons mode s other files rfl with ⟨-, -, hchanges, -⟩ |
      ⟨plan, hplan, ⟨-, ⟨behind, hpart⟩, -⟩ | ⟨u, rest, hmade, rfl, -, -, hchanges, -⟩⟩
    · rw [hchanges] at h
      simp at h
    · rw [h, List.append_assoc] at hpart
      obtain ⟨rfl, hwritten⟩ := planFix_write hplan hpart.symm ht
      exact hwritten
    · rw [hchanges] at h
      rcases List.append_eq_append_iff.1 h with ⟨more, rfl, hmore⟩ | ⟨more, hsplit, hmore⟩
      · -- the write is for one of the files behind this one
        obtain ⟨v, hv, ht⟩ := FileStore.applyAll_append_iff.1 ht
        obtain rfl := Except.ok.inj (hv.symm.trans hmade)
        exact ih hmore ht
      · cases more with
        | nil =>
          rw [List.append_nil] at hsplit
          rw [← hsplit, hmade] at ht
          obtain rfl := Except.ok.inj ht
          have hfront : (w.fixFiles mode u files).changes = [] ++ .write file text :: after :=
            hmore.symm
          exact ih hfront rfl
        | cons c more =>
          obtain ⟨rfl, -⟩ := List.cons.inj hmore
          obtain ⟨rfl, hwritten⟩ := planFix_write hplan hsplit ht
          exact hwritten

/-! ## Lines ahead of all rewrites -/

/-- The fixes that are made in `file` of the store `s`. -/
def rewrites (w : Workspace) (mode : FixMode) (s : FileStore) (file : Location) : List Fix :=
  match s.readText file with
  | .error _ => []
  | .ok source =>
    match w.linter.fixSource source file.toText mode.limit with
    | .error _ => []
    | .ok report => w.linter.rewrites file.toText source report.passes

/-- What a run writes to a file starts with the complete `lines` that are ahead of all `rewrites`,
    with their ends `unified`; so it starts with the lines as they were just when there is no return
    in them. -/
theorem lines_ahead_of_rewrites {lines rest : Bytes}
    (h : (w.fix mode s paths).changes = before ++ .write file text :: after)
    (ht : s.applyAll before = .ok t) (hbytes : t.contents? file = some (lines ++ rest))
    (hlines : Bytes.AreLines lines rest)
    (hahead : ∀ f ∈ w.rewrites mode t file, ((Bytes.unified lines).length : Int) ≤ f.span.start) :
    Bytes.unified lines <+: Bytes.ofText text ∧
      (lines <+: Bytes.ofText text ↔ Bytes.carriageReturn ∉ lines) := by
  rw [fix_changes] at h
  obtain ⟨source, report, hread, hfix, rfl⟩ := fixFiles_write h ht
  obtain ⟨whole, hwhole, hsource⟩ := FileStore.readText_eq_ok_iff.1 hread
  rw [hbytes] at hwhole
  rw [← Option.some.inj hwhole, Bytes.unified_append hlines] at hsource
  have hstart : Bytes.unified lines <+: Bytes.ofText source := by
    rw [hsource]
    exact List.prefix_append _ _
  have hkept : Bytes.unified lines <+: Bytes.ofText report.outcome.fixed := by
    refine Linter.isPrefix_fixed hfix hstart fun f hf => hahead f ?_
    unfold rewrites
    rw [hread]
    dsimp only
    rw [hfix]
    exact hf
  exact ⟨hkept, Bytes.isPrefix_iff_of_unified_isPrefix hkept⟩

end Workspace

/-! ## A return ahead of a function -/

namespace Tree

/-- The tree of `function f() {}` under a line with a remark. -/
def remarkedFunction : Tree :=
  let inSecondLine := fun (l : Label) => { l with row := 1, column := l.start - 3 }
  program "//\nfunction f() \x7b\x7d" [
    .node (.ofText .comment true 0 "//" []) [],
    .node (inSecondLine (.ofText .functionDeclaration true 3 "function f() \x7b\x7d" [])) [
      .node (inSecondLine (.ofText (.other "function") false 3 "function" [])) [],
      .node (inSecondLine (.ofText .identifier true 12 "f" [.name])) [],
      .node (inSecondLine (.ofText (.other "formal_parameters") true 13 "()" [.parameters])) [
        .node (inSecondLine (.ofText (.other "(") false 13 "(" [])) [],
        .node (inSecondLine (.ofText (.other ")") false 14 ")" [])) []],
      .node (inSecondLine (.ofText .statementBlock true 16 "\x7b\x7d" [.body])) [
        .node (inSecondLine (.ofText (.other "\x7b") false 16 "\x7b" [])) [],
        .node (inSecondLine (.ofText (.other "\x7d") false 17 "\x7d" [])) []]]]

theorem isParseOf_remarkedFunction :
    remarkedFunction.IsParseOf "//\nfunction f() \x7b\x7d" := by decide

end Tree

/-- A parser that knows the source of `FileStore.remarkedFunction`, as it is read. -/
def Parser.remarkedFunction : Parser := fun _ source =>
  if source = "//\nfunction f() \x7b\x7d" then ⟨.remarkedFunction, false⟩
  else ⟨.undivided source, false⟩

theorem Parser.isFaithful_remarkedFunction : Parser.remarkedFunction.IsFaithful :=
  isFaithful_ofTree Tree.isParseOf_remarkedFunction

/-- A project with a return and a line feed at the end of the comment. -/
def FileStore.remarkedFunction : FileStore :=
  { files := [(⟨["p", "a.ts"]⟩, Bytes.ofText "//\r\nfunction f() \x7b\x7d")], directories := [] }

/-- A workspace for `FileStore.remarkedFunction`. -/
def Workspace.remarkedFunction : Workspace :=
  { Workspace.emptyFunction with linter := ⟨⟨{}, .default⟩, .remarkedFunction⟩ }

namespace Workspace

/-- A run without backups rewrites the function of `remarkedFunction`, and nothing in the line ahead
    of it. -/
theorem changes_remarkedFunction :
    (remarkedFunction.fix { backups := false } .remarkedFunction ["a.ts"]).changes
        = [] ++ .write ⟨["p", "a.ts"]⟩ "//\nconst f = () => \x7b\x7d;" :: [] ∧
      FileStore.remarkedFunction.contents? ⟨["p", "a.ts"]⟩
        = some (Bytes.ofText "//\r\n" ++ Bytes.ofText "function f() \x7b\x7d") ∧
      Bytes.AreLines (Bytes.ofText "//\r\n") (Bytes.ofText "function f() \x7b\x7d") ∧
      ∀ f ∈ remarkedFunction.rewrites { backups := false } .remarkedFunction ⟨["p", "a.ts"]⟩,
        ((Bytes.unified (Bytes.ofText "//\r\n")).length : Int) ≤ f.span.start := by
  exact ⟨by decide +kernel, by decide +kernel, .inr (.inl (by decide)), by decide +kernel⟩

/-- The line ahead of the function comes out with a line feed alone, not as it was. -/
theorem lines_ahead_of_function :
    (remarkedFunction.fix { backups := false } .remarkedFunction ["a.ts"]).changes
        = [.write ⟨["p", "a.ts"]⟩ "//\nconst f = () => \x7b\x7d;"] ∧
      Bytes.ofText "//\n" <+: Bytes.ofText "//\nconst f = () => \x7b\x7d;" ∧
      ¬Bytes.ofText "//\r\n" <+: Bytes.ofText "//\nconst f = () => \x7b\x7d;" := by
  obtain ⟨hchanges, hbytes, hlines, hahead⟩ := changes_remarkedFunction
  obtain ⟨hkept, hiff⟩ := lines_ahead_of_rewrites hchanges rfl hbytes hlines hahead
  exact ⟨hchanges, hkept, fun h => hiff.1 h (by decide)⟩

/-- Lines ahead of all `rewrites` do not come out as they were. -/
theorem returns_lost :
    ¬ ∀ (w : Workspace) (mode : FixMode) (s t : FileStore) (paths : List String)
        (before after : List Change) (file : Location) (text : String) (lines rest : Bytes),
      w.linter.parser.IsFaithful →
      (w.fix mode s paths).changes = before ++ .write file text :: after →
      s.applyAll before = .ok t → t.contents? file = some (lines ++ rest) →
      Bytes.AreLines lines rest →
      (∀ f ∈ w.rewrites mode t file, ((Bytes.unified lines).length : Int) ≤ f.span.start) →
      lines <+: Bytes.ofText text := by
  intro h
  obtain ⟨hchanges, hbytes, hlines, hahead⟩ := changes_remarkedFunction
  have hstart := h remarkedFunction _ _ _ _ _ _ _ _ _ _ Parser.isFaithful_remarkedFunction
    hchanges rfl hbytes hlines hahead
  revert hstart
  decide

end Workspace

end ArrowLint
