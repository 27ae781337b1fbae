/-
  ArrowLint.Proofs.Candidate.Place

  Where a candidate stands, said of the nodes above it. A left side is a prototype or a
  member of one (`Node.NamesPrototype`, `Node.NamesPrototypeMember`), an assignment with such
  a left side assigns to a prototype (`Node.AssignsToPrototype`), and

    * a context is one of the two prototype contexts just when some ancestor assigns to a
      prototype (`Node.isPrototype_context_iff`);
    * it is the one of a class body just when none does and some ancestor is a class body
      (`Node.context_eq_withinClassBody_iff`).

  In a legible tree every node has a context (`Node.exists_context`).
-/

import ArrowLint.Candidate.Classify
import ArrowLint.Proofs.Fallible
import ArrowLint.Proofs.Syntax.Parsed

namespace ArrowLint

namespace Node

/-! ## Prototypes -/

/-- Whether a node is a member expression whose property is written `prototype`. -/
def NamesPrototype (n : Node) : Prop :=
  n.kind = .memberExpression ∧ n.fieldText .property = .ok "prototype"

/-- Whether a node is a member expression whose object `NamesPrototype`. -/
def NamesPrototypeMember (n : Node) : Prop :=
  n.kind = .memberExpression ∧ ∃ object, n.field .object = some object ∧ object.NamesPrototype

/-- The context that a `left` side gives to what is assigned to it. What `NamesPrototype` counts as
    a prototype even where it is in turn a member of one. -/
inductive Marks (left : Node) : Context → Prop
  | prototype (names : left.NamesPrototype) : left.Marks .prototypeAssignTarget
  | member (names : left.NamesPrototypeMember) (noPrototype : ¬ left.NamesPrototype) :
      left.Marks .prototypeMutationTarget

/-- Whether a node is an assignment, plain or combined with an operator, whose left side
    `NamesPrototype` or `NamesPrototypeMember`. -/
def AssignsToPrototype (n : Node) : Prop :=
  n.kind.isAssignment = true ∧
    ∃ left, n.field .left = some left ∧ (left.NamesPrototype ∨ left.NamesPrototypeMember)

/-- Whether a node is an assignment whose left side `Marks` the given context. -/
def AssignsAs (n : Node) (context : Context) : Prop :=
  n.kind.isAssignment = true ∧ ∃ left, n.field .left = some left ∧ left.Marks context

theorem Marks.isPrototype {left : Node} {context : Context} (h : left.Marks context) :
    context.isPrototype = true := by
  cases h with
  | prototype => rfl
  | member => rfl

theorem Marks.unique {left : Node} {context other : Context} (h : left.Marks context)
    (h' : left.Marks other) : other = context := by
  cases h with
  | prototype names =>
    cases h' with
    | prototype => rfl
    | member _ noPrototype => exact absurd names noPrototype
  | member _ noPrototype =>
    cases h' with
    | prototype names => exact absurd names noPrototype
    | member => rfl

theorem exists_marks_iff {left : Node} :
    (∃ context, left.Marks context) ↔ left.NamesPrototype ∨ left.NamesPrototypeMember := by
  refine ⟨?_, fun h => ?_⟩
  · rintro ⟨_, names | ⟨names, -⟩⟩
    · exact .inl names
    · exact .inr names
  · by_cases hp : left.NamesPrototype
    · exact ⟨_, .prototype hp⟩
    · exact ⟨_, .member (h.resolve_left hp) hp⟩

/-- The assignments that give some context are those that `AssignsToPrototype`. -/
theorem exists_assignsAs_iff {n : Node} :
    (∃ context, n.AssignsAs context) ↔ n.AssignsToPrototype := by
  constructor
  · rintro ⟨context, hk, left, hl, hm⟩
    exact ⟨hk, left, hl, exists_marks_iff.1 ⟨context, hm⟩⟩
  · rintro ⟨hk, left, hl, hnames⟩
    obtain ⟨context, hm⟩ := exists_marks_iff.2 hnames
    exact ⟨context, hk, left, hl, hm⟩

theorem AssignsAs.assignsToPrototype {n : Node} {context : Context} (h : n.AssignsAs context) :
    n.AssignsToPrototype :=
  exists_assignsAs_iff.1 ⟨context, h⟩

theorem AssignsAs.isPrototype {n : Node} {context : Context} (h : n.AssignsAs context) :
    context.isPrototype = true := by
  obtain ⟨-, left, -, hm⟩ := h
  exact hm.isPrototype

theorem AssignsAs.unique {n : Node} {context other : Context} (h : n.AssignsAs context)
    (h' : n.AssignsAs other) : other = context := by
  obtain ⟨-, left, hl, hm⟩ := h
  obtain ⟨-, left', hl', hm'⟩ := h'
  obtain rfl := Option.some.inj (hl.symm.trans hl')
  exact hm.unique hm'

theorem isPrototype_eq_ok {n : Node} {b : Bool} (h : n.isPrototype = .ok b) :
    b = true ↔ n.NamesPrototype := by
  unfold isPrototype at h
  unfold NamesPrototype
  split at h
  · next hk =>
    obtain ⟨text, ht, rfl⟩ := map_eq_ok_iff.1 h
    rw [ht]
    simpa using fun _ => beq_iff_eq.1 hk
  · next hk =>
    obtain rfl := Except.ok.inj h
    simpa using fun hm => absurd hm (by simpa using hk)

theorem isPrototypeMember_eq_ok {n : Node} {b : Bool} (h : n.isPrototypeMember = .ok b) :
    b = true ↔ n.NamesPrototypeMember := by
  unfold isPrototypeMember at h
  unfold NamesPrototypeMember
  cases ho : n.field .object with
  | none =>
    rw [ho] at h
    obtain rfl := Except.ok.inj h
    simp
  | some object =>
    simp only [ho] at h
    split at h
    · next hk => simpa [beq_iff_eq.1 hk] using isPrototype_eq_ok h
    · next hk =>
      obtain rfl := Except.ok.inj h
      simpa using fun hm => absurd hm (by simpa using hk)

/-! ## Assignments -/

/-- What `prototypeContext?` finds in a `left` side is the context that it `Marks`. -/
theorem prototypeContext?_eq_ok {left : Node} {found : Option Context} {context : Context}
    (h : left.prototypeContext? = .ok found) : found = some context ↔ left.Marks context := by
  unfold prototypeContext? at h
  obtain ⟨isPrototype, hp, h⟩ := bind_eq_ok_iff.1 h
  have hp := isPrototype_eq_ok hp
  split at h
  · next ht =>
    obtain rfl := Except.ok.inj h
    have hm : left.Marks .prototypeAssignTarget := .prototype (hp.1 ht)
    exact ⟨fun hc => Option.some.inj hc ▸ hm, fun hc => by rw [hm.unique hc]⟩
  · next hf =>
    obtain ⟨isMember, hmember, h⟩ := bind_eq_ok_iff.1 h
    have hmember := isPrototypeMember_eq_ok hmember
    split at h
    · next ht =>
      obtain rfl := Except.ok.inj h
      have hm : left.Marks .prototypeMutationTarget := .member (hmember.1 ht) (hf ∘ hp.2)
      exact ⟨fun hc => Option.some.inj hc ▸ hm, fun hc => by rw [hm.unique hc]⟩
    · next hf' =>
      obtain rfl := Except.ok.inj h
      refine iff_of_false (by simp) fun hm => ?_
      exact (exists_marks_iff.1 ⟨context, hm⟩).elim (hf ∘ hp.2) (hf' ∘ hmember.2)

/-- What `assignmentContext?` finds in `n` is the context that it `AssignsAs`. -/
theorem assignmentContext?_eq_ok {n : Node} {found : Option Context} {context : Context}
    (h : n.assignmentContext? = .ok found) : found = some context ↔ n.AssignsAs context := by
  unfold assignmentContext? at h
  split at h
  · next hk =>
    cases hl : n.field .left with
    | none =>
      -- an assignment without a left side assigns to nothing
      rw [hl] at h
      obtain rfl := Except.ok.inj h
      refine iff_of_false (by simp) ?_
      rintro ⟨-, left, hleft, -⟩
      rw [hl] at hleft
      cases hleft
    | some left =>
      rw [hl] at h
      rw [prototypeContext?_eq_ok h]
      refine ⟨fun hm => ⟨hk, left, hl, hm⟩, ?_⟩
      rintro ⟨-, left', hleft, hm⟩
      obtain rfl := Option.some.inj (hl.symm.trans hleft)
      exact hm
  · next hk =>
    obtain rfl := Except.ok.inj h
    exact iff_of_false (by simp) fun ha => hk ha.1

theorem not_assignsToPrototype {n : Node} (h : n.assignmentContext? = .ok none) :
    ¬ n.AssignsToPrototype := by
  intro ha
  obtain ⟨context, hc⟩ := exists_assignsAs_iff.2 ha
  cases (assignmentContext?_eq_ok h).2 hc

/-! ## Contexts -/

/-- The nearest of the nodes `above` that `AssignsAs` a context decides. Without one `contextOf`
    asks whether there is a class body among them. -/
theorem contextOf_eq_ok_nearest {above : List Node} {context : Context}
    (h : contextOf above = .ok context) :
    (∃ nearer a farther, above = nearer ++ a :: farther ∧ a.AssignsAs context ∧
      ∀ b ∈ nearer, ¬ b.AssignsToPrototype) ∨
    ((∀ a ∈ above, ¬ a.AssignsToPrototype) ∧
      context = if above.any (·.kind == .classBody) then .withinClassBody else .none) := by
  unfold contextOf at h
  obtain ⟨found, hf, h⟩ := map_eq_ok_iff.1 h
  cases found with
  | none =>
    -- the search has gone all the way up
    have hall := findSomeM?_eq_ok_none_iff.1 hf
    exact .inr ⟨fun a ha => not_assignsToPrototype (hall a ha), h.symm⟩
  | some c =>
    -- the search has ended at the nearest assignment to a prototype
    obtain rfl : c = context := h
    obtain ⟨nearer, a, farther, rfl, ha, hnearer⟩ := exists_append_of_findSomeM?_eq_ok_some hf
    exact .inl ⟨nearer, a, farther, rfl, (assignmentContext?_eq_ok ha).1 rfl,
      fun b hb => not_assignsToPrototype (hnearer b hb)⟩

/-- What `contextOf above` says of the nodes `above`. -/
theorem contextOf_eq_ok {above : List Node} {context : Context}
    (h : contextOf above = .ok context) :
    (context.isPrototype = true ∧ ∃ a ∈ above, a.AssignsToPrototype) ∨
      ((∀ a ∈ above, ¬ a.AssignsToPrototype) ∧
        context = if above.any (·.kind == .classBody) then .withinClassBody else .none) := by
  refine (contextOf_eq_ok_nearest h).imp_left ?_
  rintro ⟨nearer, a, farther, rfl, ha, -⟩
  exact ⟨ha.isPrototype, a, by simp, ha.assignsToPrototype⟩

/-- The context of `n` `isPrototype` just when an ancestor `AssignsToPrototype`. -/
theorem isPrototype_context_iff {n : Node} {context : Context} (h : n.context = .ok context) :
    context.isPrototype = true ↔ ∃ a ∈ n.ancestors, a.AssignsToPrototype := by
  rcases contextOf_eq_ok h with ⟨hp, ha⟩ | ⟨hn, rfl⟩
  · exact ⟨fun _ => ha, fun _ => hp⟩
  · constructor
    · intro hp
      split at hp <;> cases hp
    · rintro ⟨a, ha, hy⟩
      exact absurd hy (hn a ha)

/-- The context is `withinClassBody` only where no ancestor `AssignsToPrototype`, be it inside or
    outside of the class. -/
theorem context_eq_withinClassBody_iff {n : Node} {context : Context}
    (h : n.context = .ok context) :
    context = .withinClassBody ↔
      (∃ a ∈ n.ancestors, a.kind = .classBody) ∧ ∀ a ∈ n.ancestors, ¬ a.AssignsToPrototype := by
  have hany : n.ancestors.any (·.kind == .classBody) = true ↔
      ∃ a ∈ n.ancestors, a.kind = .classBody := by
    simp [List.any_eq_true]
  rcases contextOf_eq_ok h with ⟨hp, a, ha, hy⟩ | ⟨hn, hc⟩
  · constructor
    · rintro rfl
      cases hp
    · rintro ⟨-, hn⟩
      exact absurd hy (hn a ha)
  · rw [← hany, hc]
    constructor
    · intro hw
      refine ⟨?_, hn⟩
      split at hw
      · assumption
      · cases hw
    · rintro ⟨hw, -⟩
      rw [if_pos hw]

/-! ## Legible trees -/

theorem exists_isPrototype {n : Node} (h : n.whole.IsLegible) : ∃ b, n.isPrototype = .ok b := by
  unfold isPrototype
  split
  · exact exists_map_eq_ok _ (exists_fieldText h .property)
  · exact ⟨false, rfl⟩

theorem exists_isPrototypeMember {n : Node} (h : n.whole.IsLegible) :
    ∃ b, n.isPrototypeMember = .ok b := by
  unfold isPrototypeMember
  cases ho : n.field .object with
  | none => exact ⟨false, rfl⟩
  | some object =>
    dsimp only
    split
    · exact exists_isPrototype (by rwa [whole_of_field ho])
    · exact ⟨false, rfl⟩

theorem exists_prototypeContext? {left : Node} (h : left.whole.IsLegible) :
    ∃ found, left.prototypeContext? = .ok found := by
  obtain ⟨isPrototype, hp⟩ := exists_isPrototype h
  obtain ⟨isMember, hm⟩ := exists_isPrototypeMember h
  unfold prototypeContext?
  rw [hp]
  cases isPrototype with
  | true => exact ⟨_, rfl⟩
  | false =>
    simp only [bind, Except.bind, hm]
    cases isMember with
    | true => exact ⟨_, rfl⟩
    | false => exact ⟨_, rfl⟩

theorem exists_assignmentContext? {n : Node} (h : n.whole.IsLegible) :
    ∃ found, n.assignmentContext? = .ok found := by
  unfold assignmentContext?
  split
  · cases hl : n.field .left with
    | none => exact ⟨none, rfl⟩
    | some left => exact exists_prototypeContext? (by rwa [whole_of_field hl])
  · exact ⟨none, rfl⟩

/-- In a legible tree every node has a `context`. -/
theorem exists_context {n : Node} (h : n.whole.IsLegible) : ∃ context, n.context = .ok context :=
  exists_map_eq_ok _ (exists_findSomeM?_eq_ok fun _ ha =>
    exists_assignmentContext? (by rwa [whole_of_mem_ancestors ha]))

end Node

end ArrowLint
