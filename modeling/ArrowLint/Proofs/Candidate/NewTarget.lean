/-
  ArrowLint.Proofs.Candidate.NewTarget

  How the rule finds `new.target`. It reads the text of the whole meta property without its white
  space, so what counts is the spelling and not the tokens: if the node is pieced together from the
  tokens `new` and `target` and others, it is found just when the others spell the dot between the
  two and nothing else (`Node.spells_newTarget_iff`). A remark spells more than that, so it hides
  the new target from the rule (`Rule.new_target_overlooked`).

  `Rule.newTarget_by_spelling` says what follows for the function around it: found, it keeps the
  function from being reported, and else the rule answers as if the node were not there.
-/

import ArrowLint.Proofs.Candidate.Reported

namespace ArrowLint

open Node

/-- Whether a node is the new target, as its tokens say: among them `new` and behind that
    `target`. -/
structure Node.IsNewTarget (m : Node) : Prop where
  kind : m.kind = .metaProperty
  tokens : ∃ before new between target after,
    m.children = before ++ new :: between ++ target :: after ∧
      new.kind = .newKeyword ∧ target.kind = .targetKeyword

/-- What `nodes` spell one behind the other, their white space apart. -/
def Node.spelling (nodes : List Node) : List Char :=
  nodes.flatMap fun t => (t.label.text.map Text.squeeze).getD []

/-- What stands around two words of `new.target` is the dot between them. -/
theorem around_newTarget_iff {b m a : List Char} :
    b ++ "new".toList ++ m ++ "target".toList ++ a = "new.target".toList ↔
      b = [] ∧ m = ['.'] ∧ a = [] := by
  refine ⟨fun h => ?_, fun ⟨hb, hm, ha⟩ => by rw [hb, hm, ha]; rfl⟩
  -- there is room for one character besides the two words
  have hlen : b.length + m.length + a.length = 1 := by
    have := congrArg List.length h
    simp only [List.length_append] at this
    have hnew : "new".toList.length = 3 := rfl
    have htarget : "target".toList.length = 6 := rfl
    have hwhole : "new.target".toList.length = 10 := rfl
    omega
  cases b with
  | cons x b =>
    obtain rfl : b = [] := List.eq_nil_of_length_eq_zero (by
        simp only [List.length_cons] at hlen
        omega)
    simp at h
  | nil =>
    cases m with
    | nil => simp at h
    | cons x m =>
      obtain rfl : m = [] := List.eq_nil_of_length_eq_zero (by
        simp only [List.length_cons] at hlen
        omega)
      obtain rfl : a = [] := List.eq_nil_of_length_eq_zero (by
        simp only [List.length_cons] at hlen
        omega)
      simpa using h

namespace Node

variable {m new target : Node} {before between after : List Node} {s : String}

theorem spelling_append (ns ms : List Node) : spelling (ns ++ ms) = spelling ns ++ spelling ms :=
  List.flatMap_append

theorem spelling_cons (h : m.text = .ok s) (ns : List Node) :
    spelling (m :: ns) = Text.squeeze s ++ spelling ns := by
  simp [spelling, text_eq_ok_iff.1 h]

/-- A node that is pieced together from its tokens spells `new.target` just when nothing but a dot
    is spelled besides the two words. -/
theorem spells_newTarget_iff (hc : m.children = before ++ new :: between ++ target :: after)
    (hnew : new.text = .ok "new") (htarget : target.text = .ok "target")
    (hs : Text.squeeze s = spelling m.children) :
    Text.squeeze s = "new.target".toList ↔
      spelling before = [] ∧ spelling between = ['.'] ∧ spelling after = [] := by
  have hwords : Text.squeeze "new" = "new".toList ∧ Text.squeeze "target" = "target".toList := by
    decide
  rw [← around_newTarget_iff, hs, hc, spelling_append, spelling_append, spelling_cons hnew,
    spelling_cons htarget, hwords.1, hwords.2]
  simp only [List.append_assoc]

/-- A meta property is bound to the function just when it spells `new.target`. -/
theorem isBound_metaProperty_iff (hk : m.kind = .metaProperty) (ht : m.text = .ok s) :
    m.IsBound ↔ Text.squeeze s = "new.target".toList := by
  constructor
  · intro h
    cases h with
    | this kind | superclass kind | arguments kind =>
      simp [hk, Kind.isThis, Kind.isIdentifier] at kind
    | newTarget _ text_eq spells =>
      obtain rfl := Except.ok.inj (text_eq.symm.trans ht)
      exact spells
  · exact .newTarget (.inl hk) ht

end Node

/-! ## Reports -/

/-- Whether `c` would be reportable if the node `m` were not looked at. -/
structure Candidate.IsReportableBut (c : Candidate) (o : Options) (m : Node) : Prop where
  noGenerator : c.isGenerator = false
  unbound : ∀ m', c.node.Scans m' → m' ≠ m → ¬ m'.IsBound
  place : o.disallowPrototype = true ∨ ∀ a ∈ c.node.ancestors, ¬ a.AssignsToPrototype
  arrow : c.node.kind = .arrowFunction →
    (c.bodyShape = .expressionBody ∧ o.returnStyle = .explicit) ∨
      (c.bodyShape = .blockSingleReturn ∧ o.returnStyle = .implicit)
  function : c.node.kind ≠ .arrowFunction → c.IsSingleReturn o
  member : ∀ entry, c.entry = some entry → c.IsOpenMember entry o

theorem Candidate.isReportableBut_iff {c : Candidate} {o : Options} {m : Node}
    (h : ¬ m.IsBound) : c.IsReportableBut o m ↔ c.IsReportable o := by
  constructor
  · intro hr
    refine ⟨⟨hr.noGenerator, fun m' hm' => ?_, hr.place⟩, hr.arrow, hr.function, hr.member⟩
    by_cases hne : m' = m
    · rwa [hne]
    · exact hr.unbound m' hm' hne
  · intro hr
    exact ⟨hr.noGenerator, fun m' hm' _ => hr.unbound m' hm', hr.place, hr.arrow, hr.function,
      hr.member⟩

namespace Rule

/-- A function with a meta property that spells `new.target`, white space apart, is not reported.
    If the meta property spells anything else, the function is reported just when it would be
    without it, whatever its tokens are. Where it is pieced together from `new`, `target` and other
    tokens, it spells `new.target` just when the others spell the dot between the two and nothing
    else. -/
theorem newTarget_by_spelling (rule : Rule) (path : String) {n m : Node} {c : Candidate}
    {s : String} (hc : n.candidate? = .ok (some c)) (hm : n.Scans m)
    (hk : m.kind = .metaProperty) (ht : m.text = .ok s) :
    (Text.squeeze s = "new.target".toList → ∀ v, rule.check path n ≠ .ok (.violation v)) ∧
    (Text.squeeze s ≠ "new.target".toList → n.whole.IsLegible →
      ((∃ v, rule.check path n = .ok (.violation v)) ↔ c.IsReportableBut rule.options m)) ∧
    ∀ before new between target after,
      m.children = before ++ new :: between ++ target :: after →
      new.text = .ok "new" → target.text = .ok "target" →
      Text.squeeze s = spelling m.children →
      (Text.squeeze s = "new.target".toList ↔
        spelling before = [] ∧ spelling between = ['.'] ∧ spelling after = []) := by
  have hbound := isBound_metaProperty_iff hk ht
  refine ⟨fun hspells v hv => ?_, fun hspells hl => ?_,
    fun before new between target after hchildren hnew htarget hs =>
      spells_newTarget_iff hchildren hnew htarget hs⟩
  · have hreportable := isReportable_of_check hc hv
    exact hreportable.unbound m (by rwa [(makes_of_candidate? hc).node]) (hbound.2 hspells)
  · rw [Candidate.isReportableBut_iff (mt hbound.1 hspells)]
    exact ⟨fun ⟨v, hv⟩ => isReportable_of_check hc hv,
      fun hr => exists_check_of_isReportable path hc hl hr⟩

end Rule

/-! ## A remark in the new target -/

/-- The function in `function f(){ new./**/target }`. -/
def Tree.remarkedTarget : Tree :=
  .node (.ofText .functionDeclaration true 0 "function f()\x7b new./**/target \x7d" []) [
    .node (.ofText (.other "function") false 0 "function" []) [],
    .node (.ofText .identifier true 9 "f" [.name]) [],
    .node (.ofText (.other "formal_parameters") true 10 "()" [.parameters]) [
      .node (.ofText (.other "(") false 10 "(" []) [],
      .node (.ofText (.other ")") false 11 ")" []) []],
    .node (.ofText .statementBlock true 12 "\x7b new./**/target \x7d" [.body]) [
      .node (.ofText (.other "\x7b") false 12 "\x7b" []) [],
      .node (.ofText (.other "expression_statement") true 14 "new./**/target" []) [
        .node (.ofText .metaProperty true 14 "new./**/target" []) [
          .node (.ofText .newKeyword false 14 "new" []) [],
          .node (.ofText (.other ".") false 17 "." []) [],
          .node (.ofText .comment true 18 "/**/" []) [],
          .node (.ofText .targetKeyword false 22 "target" []) []]],
      .node (.ofText (.other "\x7d") false 29 "\x7d" []) []]]

/-- The function of `remarkedTarget` in its place. -/
def Node.remarkedTarget : Node :=
  ⟨.remarkedTarget, [
    { label := .ofText (.other "program") true 0 "function f()\x7b new./**/target \x7d" []
      before := []
      after := [] }]⟩

theorem Node.isParseOf_remarkedTarget :
    Node.remarkedTarget.whole.IsParseOf "function f()\x7b new./**/target \x7d" := by
  decide

/-- A node that the function `Scans` is `new.target` by its tokens, although its text holds a
    comment. -/
theorem Node.exists_isNewTarget_remarkedTarget :
    ∃ m, Node.remarkedTarget.Scans m ∧ m.IsNewTarget ∧ m.text = .ok "new./**/target" ∧
      Text.squeeze "new./**/target" = spelling m.children :=
  ⟨_, mem_scanned_iff.1 (List.mem_of_getElem? (i := 9) rfl),
    ⟨rfl, [], _, [_, _], _, [], rfl, rfl, rfl⟩, rfl, rfl⟩

namespace Rule

/-- The rule reports `remarkedTarget`: it takes the function for one without `new.target`. -/
theorem newTarget_by_spelling_remarked :
    Node.remarkedTarget.whole.IsParseOf "function f()\x7b new./**/target \x7d" ∧
    ∃ c m, Node.remarkedTarget.candidate? = .ok (some c) ∧ Node.remarkedTarget.Scans m ∧
      m.IsNewTarget ∧ m.text = .ok "new./**/target" ∧
      Text.squeeze "new./**/target" = spelling m.children ∧
      Text.squeeze "new./**/target" ≠ "new.target".toList ∧ c.IsReportableBut {} m := by
  obtain ⟨m, hm, hnew, ht, hs⟩ := exists_isNewTarget_remarkedTarget
  have hspells : Text.squeeze "new./**/target" ≠ "new.target".toList := by decide
  obtain ⟨-, hbut, -⟩ :=
    newTarget_by_spelling ⟨{}, .default⟩ "f.ts" (n := .remarkedTarget) rfl hm hnew.kind ht
  exact ⟨isParseOf_remarkedTarget, _, m, rfl, hm, hnew, ht, hs, hspells,
    (hbut hspells isParseOf_remarkedTarget.isLegible).1 ⟨_, rfl⟩⟩

/-- A function that `Scans` a node that `IsNewTarget` can be reported. -/
theorem new_target_overlooked :
    ¬ ∀ (rule : Rule) (path : String) (n m : Node) (c : Candidate) (v : Violation),
      n.candidate? = .ok (some c) → n.Scans m → m.IsNewTarget →
      rule.check path n ≠ .ok (.violation v) := by
  intro h
  obtain ⟨m, hm, hnew, -⟩ := exists_isNewTarget_remarkedTarget
  exact h ⟨{}, .default⟩ "f.ts" .remarkedTarget m _ _ rfl hm hnew rfl

end Rule

end ArrowLint
