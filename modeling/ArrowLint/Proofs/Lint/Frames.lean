/-
  ArrowLint.Proofs.Lint.Frames

  What is reported in a phrase that stands in frames. A frame is passive if neither it nor what
  stands beside its filling can be reported (`Frame.IsPassive`), so around passive frames exactly
  that is reported which is reported in their filling (`Node.IsAt.exists_innermost`). The same
  frames decide whether a function in them is free to become an arrow function (`Node.IsOpen`).
-/

import ArrowLint.Proofs.Lint.Reports
import ArrowLint.Proofs.Syntax.Frame

namespace ArrowLint

open Phrase

/-! ## Reports below a node -/

/-- What the rule reports of `n` and of all that is below it. -/
def Rule.reportsIn (rule : Rule) (path : String) (n : Node) : List Violation :=
  n.walk.filterMap (rule.report? path)

theorem Rule.reportsIn_eq (rule : Rule) (path : String) (n : Node) :
    rule.reportsIn path n
      = (rule.report? path n).toList ++ n.children.flatMap (rule.reportsIn path) := by
  rw [reportsIn, Node.walk_eq, List.filterMap_cons, List.filterMap_flatMap]
  cases rule.report? path n with
  | none => rfl
  | some v => rfl

/-- A legible tree can be linted, and the violations are those of `reportsIn` its root. -/
theorem Linter.exists_lint_of_treeOf {linter : Linter} {source path : String} {t : Tree}
    (ht : linter.treeOf source path = t) (hl : t.IsLegible) :
    ∃ report, linter.lint source path = .ok report ∧
      report.result.violations = linter.rule.reportsIn path (Node.root t) := by
  subst ht
  obtain ⟨report, hreport⟩ := exists_lint_of_isLegible hl
  obtain ⟨findings, hf, rfl⟩ := map_eq_ok_iff.1 hreport
  exact ⟨_, hreport, violationsOf_eq_filterMap (mapM_eq_ok_iff.1 hf)⟩

/-! ## Phrases without functions -/

/-- The kinds of nodes that `candidate?` looks into. -/
def Kind.isFunction : Kind → Bool
  | .methodDefinition | .arrowFunction | .functionDeclaration | .functionExpression => true
  | _ => false

theorem Rule.report?_eq_none {rule : Rule} {path : String} {n : Node}
    (hk : n.kind.isFunction = false) : rule.report? path n = none := by
  have hnone : n.candidate? = .ok none := by
    unfold Node.candidate?
    split
    · rfl
    · split
      · next h => simp [h, Kind.isFunction] at hk
      · next h => simp [h, Kind.isFunction] at hk
      · next h => simp [h, Kind.isFunction] at hk
      · next h => simp [h, Kind.isFunction] at hk
      · rfl
  rw [report?, check, hnone]
  rfl

/-- Whether no phrase in `p` has a kind that `isFunction`. -/
def Phrase.IsInert (p : Phrase) : Prop :=
  ∀ q ∈ p.walk, q.kind.isFunction = false

instance (p : Phrase) : Decidable p.IsInert :=
  inferInstanceAs (Decidable (∀ q ∈ p.walk, q.kind.isFunction = false))

theorem Phrase.isInert_iff {p : Phrase} :
    p.IsInert ↔ p.kind.isFunction = false ∧ ∀ q ∈ p.parts, q.IsInert :=
  forall_mem_walk_iff

theorem Phrase.isInert_seated {p : Phrase} {s : Seat} : (p.seated s).IsInert ↔ p.IsInert :=
  forall_mem_walk_seated (by rw [kind_seated])

theorem Rule.reportsIn_of_isInert (rule : Rule) (path : String) {n : Node} {p : Phrase}
    (h : n.Shows p) (hp : p.IsInert) : rule.reportsIn path n = [] := by
  refine List.filterMap_eq_nil_iff.2 fun m hm => report?_eq_none ?_
  obtain ⟨q, hq, hs⟩ := h.exists_of_contains (Node.mem_walk_iff.1 hm)
  rw [hs.kind_eq, hp q hq]

theorem Rule.reportsIn_of_forall₂ (rule : Rule) (path : String) {nodes : List Node}
    {ps : List Phrase} (h : List.Forall₂ Node.Shows nodes ps) (hps : ∀ p ∈ ps, p.IsInert) :
    nodes.flatMap (rule.reportsIn path) = [] := by
  refine List.flatMap_eq_nil_iff.2 fun n hn => ?_
  obtain ⟨p, hp, hs⟩ := Node.exists_shows_of_mem h hn
  exact rule.reportsIn_of_isInert path hs (hps p hp)

/-! ## Places of functions -/

/-- Whether `p` is a member expression whose property is written `prototype`. -/
def Phrase.isPrototype (p : Phrase) : Bool :=
  p.kind == .memberExpression && p.fieldText .property == "prototype"

/-- Whether `p` is a member expression whose object `isPrototype`. -/
def Phrase.isPrototypeMember (p : Phrase) : Bool :=
  p.kind == .memberExpression && (p.field .object).any isPrototype

namespace Frame

/-- Whether a frame is an assignment to a prototype or to a member of one. One whose left side is
    not ahead of its filling counts as such. -/
def assignsToPrototype (f : Frame) : Bool :=
  f.kind.isAssignment &&
    match f.before.find? (·.fills .left) with
    | some left => left.isPrototype || left.isPrototypeMember
    | none => true

/-- Whether a frame exports its filling by `default`. -/
def isDefaultExport (f : Frame) : Bool :=
  f.kind == .exportStatement && (f.before ++ f.after).any (·.kind == .defaultKeyword)

/-- Whether a frame is a pair of an object or a field of a class. -/
def isMember (f : Frame) : Bool :=
  f.kind == .pair || f.kind.isFieldDefinition

/-- Whether there is no function beside the filling of a frame. -/
def IsInert (f : Frame) : Prop :=
  ∀ p ∈ f.before ++ f.after, p.IsInert

instance (f : Frame) : Decidable f.IsInert :=
  inferInstanceAs (Decidable (∀ p ∈ f.before ++ f.after, p.IsInert))

/-- Whether a frame leaves the functions in it free to become arrow functions under `o`. -/
def IsClear (f : Frame) (o : Options) : Prop :=
  o.disallowPrototype = true ∨ f.assignsToPrototype = false

instance (f : Frame) (o : Options) : Decidable (f.IsClear o) :=
  inferInstanceAs (Decidable (_ ∨ _))

/-- Whether a frame is no function, has none beside its filling and `IsClear`. -/
structure IsPassive (f : Frame) (o : Options) : Prop where
  quiet : f.kind.isFunction = false
  inert : f.IsInert
  clear : f.IsClear o

instance (f : Frame) (o : Options) : Decidable (f.IsPassive o) :=
  decidable_of_iff (f.kind.isFunction = false ∧ f.IsInert ∧ f.IsClear o)
    ⟨fun ⟨hq, hi, hc⟩ => ⟨hq, hi, hc⟩, fun h => ⟨h.quiet, h.inert, h.clear⟩⟩

/-- Whether the innermost of the frames `fs` neither exports its filling by default nor holds it as
    the value of a member. -/
def HoldPlainly (fs : List Frame) : Prop :=
  ∀ f ∈ fs.getLast?, f.isDefaultExport = false ∧ f.isMember = false

instance (fs : List Frame) : Decidable (HoldPlainly fs) :=
  inferInstanceAs (Decidable (∀ f ∈ fs.getLast?, _ ∧ _))

end Frame

namespace Node

variable {n m : Node} {f : Frame} {p : Phrase} {o : Options} {source : Bytes} {start : Nat}

theorem Shows.namesPrototype_iff (h : n.Shows p) : n.NamesPrototype ↔ p.isPrototype = true := by
  rw [NamesPrototype, h.kind_eq, h.fieldText_eq, Phrase.isPrototype]
  simp

theorem Shows.isPrototypeMember (h : n.Shows p) (hn : n.NamesPrototypeMember) :
    p.isPrototypeMember = true := by
  obtain ⟨hk, object, hobject, hnames⟩ := hn
  rw [Phrase.isPrototypeMember, ← h.kind_eq, hk]
  cases hq : p.field .object with
  | none =>
    rw [h.field_eq_none hq] at hobject
    cases hobject
  | some q =>
    obtain ⟨m, hm, hs⟩ := h.exists_field hq
    rw [hm] at hobject
    obtain rfl := Option.some.inj hobject
    simpa using hs.namesPrototype_iff.1 hnames

/-- A frame that does not `assignsToPrototype` makes a node that does not. -/
theorem IsAt.not_assignsToPrototype (h : n.IsAt (f.fill p) source start)
    (hf : f.assignsToPrototype = false) : ¬ n.AssignsToPrototype := by
  rintro ⟨hk, left, hleft, hnames⟩
  obtain ⟨seat, hs⟩ := h.exists_shows
  rw [h.kind_eq, Frame.kind_fill] at hk
  rw [Frame.assignsToPrototype, hk, Bool.true_and] at hf
  split at hf
  · next q hq =>
    -- the left side is the same one with the hole filled
    have hfield : ((f.fill p).seated seat).field .left = some q := by
      show (f.before ++ _).find? _ = some q
      rw [List.find?_append, hq]
      rfl
    obtain ⟨m, hm, hshows⟩ := hs.exists_field hfield
    rw [hm] at hleft
    obtain rfl := Option.some.inj hleft
    rw [Bool.or_eq_false_iff] at hf
    rcases hnames with hnames | hnames
    · rw [hshows.namesPrototype_iff, hf.1] at hnames
      cases hnames
    · have hmember := hshows.isPrototypeMember hnames
      rw [hf.2] at hmember
      cases hmember
  · cases hf

/-- Whether the ancestors of a node leave it free to become an arrow function under `o`. -/
def IsClear (n : Node) (o : Options) : Prop :=
  o.disallowPrototype = true ∨ ∀ a ∈ n.ancestors, ¬ a.AssignsToPrototype

/-- Whether a function is neither exported by default nor the value of a member. -/
def StandsPlainly (n : Node) : Prop :=
  ∀ parent, n.parent = some parent → parent.isDefaultExport = false ∧ parent.isMember = false

/-- Whether a function `StandsPlainly`, and what is above it `IsClear`. -/
structure IsOpen (n : Node) (o : Options) : Prop where
  clear : n.IsClear o
  plain : n.StandsPlainly

theorem isOpen_root (t : Tree) (o : Options) : (root t).IsOpen o where
  clear := .inr fun _ ha => nomatch ha
  plain := fun _ hp => nomatch hp

theorem IsClear.of_parent (h : n.IsClear o) (hm : m.parent = some n)
    (hn : o.disallowPrototype = true ∨ ¬ n.AssignsToPrototype) : m.IsClear o := by
  rcases h with hon | habove
  · exact .inl hon
  · refine hn.imp_right fun hn a ha => ?_
    rw [ancestors_of_parent hm] at ha
    rcases List.mem_cons.1 ha with rfl | ha
    · exact hn
    · exact habove a ha

/-- The node of a frame that is no export by default and no member is none, either. -/
theorem IsAt.plain (h : n.IsAt (f.fill p) source start) (hp : p.kind ≠ .defaultKeyword)
    (hf : f.isDefaultExport = false ∧ f.isMember = false) :
    n.isDefaultExport = false ∧ n.isMember = false := by
  refine ⟨?_, by rw [isMember, h.kind_eq]; exact hf.2⟩
  obtain ⟨passed, m, rest, hchildren, hm, hpassed, hrest⟩ := h.exists_hole
  have hexport := hf.1
  unfold Node.isDefaultExport
  rw [h.kind_eq, Frame.kind_fill, hchildren]
  unfold Frame.isDefaultExport at hexport
  rw [Bool.and_eq_false_iff] at hexport ⊢
  -- neither the filling nor anything beside it is the mark of the default
  refine hexport.imp_right fun hnone => ?_
  simp only [List.any_eq_false, List.mem_append, List.mem_cons, beq_iff_eq] at hnone ⊢
  rintro c (hc | rfl | hc)
  · obtain ⟨q, hq, hs⟩ := exists_shows_of_mem hpassed hc
    rw [hs.kind_eq]
    exact hnone q (.inl hq)
  · rw [hm.kind_eq]
    exact hp
  · obtain ⟨q, hq, hs⟩ := exists_shows_of_mem hrest hc
    rw [hs.kind_eq]
    exact hnone q (.inr hq)

/-! ## Fillings -/

/-- In a frame that `IsInert`, what is reported is what is reported of the frame itself and in its
    filling. -/
theorem IsAt.exists_reportsIn (h : n.IsAt (f.fill p) source start) (hf : f.IsInert) (rule : Rule)
    (path : String) :
    ∃ m, m.parent = some n ∧ m.IsAt p source (start + (Bytes.ofText f.front).length) ∧
      rule.reportsIn path n = (rule.report? path n).toList ++ rule.reportsIn path m := by
  obtain ⟨passed, m, rest, hchildren, hm, hpassed, hrest⟩ := h.exists_hole
  refine ⟨m, parent_of_mem_children (by rw [hchildren]; simp), hm, ?_⟩
  rw [Rule.reportsIn_eq, hchildren, List.flatMap_append, List.flatMap_cons,
    rule.reportsIn_of_forall₂ path hpassed fun q hq => hf q (List.mem_append_left _ hq),
    rule.reportsIn_of_forall₂ path hrest fun q hq => hf q (List.mem_append_right _ hq),
    List.nil_append, List.append_nil]

/-- Within frames that are `IsPassive` there is the filling of the innermost. It is free if they
    are, and `reportsIn` them are those in it. -/
theorem IsAt.exists_innermost {fs : List Frame} (h : n.IsAt (Frame.fillAll fs p) source start)
    (hfs : ∀ f ∈ fs, f.IsPassive o) (hplain : Frame.HoldPlainly fs) (hp : p.kind ≠ .defaultKeyword)
    (hclear : n.IsClear o) (hn : fs = [] → n.StandsPlainly) (rule : Rule) (path : String) :
    ∃ m, m.IsAt p source (start + (Bytes.ofText (Frame.frontAll fs)).length) ∧
      m.whole = n.whole ∧ m.IsOpen o ∧ rule.reportsIn path n = rule.reportsIn path m := by
  induction fs generalizing n start with
  | nil =>
    refine ⟨n, ?_, rfl, ⟨hclear, hn rfl⟩, rfl⟩
    rw [Frame.frontAll, Bytes.ofText_empty]
    exact h
  | cons f fs ih =>
    rw [Frame.fillAll_cons] at h
    have hf := hfs f List.mem_cons_self
    obtain ⟨c, hc, hat, hreports⟩ := h.exists_reportsIn hf.inert rule path
    rw [Rule.report?_eq_none (by rw [h.kind_eq]; exact hf.quiet)] at hreports
    -- only the innermost frame decides how the filling stands
    have hrest : Frame.HoldPlainly fs := by
      cases fs with
      | nil =>
        intro _ hg
        cases hg
      | cons g gs => rwa [Frame.HoldPlainly, List.getLast?_cons_cons] at hplain
    have hstands : fs = [] → c.StandsPlainly := by
      rintro rfl parent hparent
      obtain rfl := Option.some.inj (hc.symm.trans hparent)
      exact h.plain hp (hplain f rfl)
    have hcclear := hclear.of_parent hc (hf.clear.imp_right h.not_assignsToPrototype)
    obtain ⟨m, hm, hwhole, hopen, hsame⟩ :=
      ih hat (fun g hg => hfs g (List.mem_cons_of_mem f hg)) hrest hcclear hstands
    refine ⟨m, ?_, hwhole.trans (whole_of_parent hc).symm, hopen, ?_⟩
    · rwa [Frame.frontAll, Bytes.ofText_append, List.length_append, ← Nat.add_assoc]
    · rw [hreports, ← hsame]
      rfl

/-- Within a frame around passive ones there is the filling of the innermost. It is free if they
    are, and beside what is reported of the outer frame itself `reportsIn` gives only what is in
    it. -/
theorem IsAt.exists_enclosed {fs : List Frame}
    (h : n.IsAt (f.fill (Frame.fillAll fs p)) source start) (hf : f.IsInert)
    (hassigns : f.assignsToPrototype = false) (hf' : f.isDefaultExport = false ∧ f.isMember = false)
    (hfs : ∀ g ∈ fs, g.IsPassive o) (hplain : Frame.HoldPlainly fs) (hp : p.kind ≠ .defaultKeyword)
    (hclear : n.IsClear o) (rule : Rule) (path : String) :
    ∃ m, m.IsAt p source (start + (Bytes.ofText (Frame.frontAll (f :: fs))).length) ∧
      m.whole = n.whole ∧ m.IsOpen o ∧
      rule.reportsIn path n = (rule.report? path n).toList ++ rule.reportsIn path m := by
  obtain ⟨c, hc, hat, hreports⟩ := h.exists_reportsIn hf rule path
  have hstands : fs = [] → c.StandsPlainly := by
    rintro rfl parent hparent
    obtain rfl := Option.some.inj (hc.symm.trans hparent)
    exact h.plain hp hf'
  obtain ⟨m, hm, hwhole, hopen, hsame⟩ := hat.exists_innermost hfs hplain hp
    (hclear.of_parent hc (.inr (h.not_assignsToPrototype hassigns))) hstands rule path
  refine ⟨m, ?_, hwhole.trans (whole_of_parent hc).symm, hopen, by rw [hreports, hsame]⟩
  rwa [Frame.frontAll, Bytes.ofText_append, List.length_append, ← Nat.add_assoc]

end Node

end ArrowLint
