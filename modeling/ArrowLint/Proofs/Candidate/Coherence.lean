/-
  ArrowLint.Proofs.Candidate.Coherence

  The parts of a candidate agree with one another. What judges a candidate and what writes its fix
  read its parts side by side and never ask whether they fit: whether there is a body, whether what
  is the value of a member has that member at hand, whether the role, the shape and the kind of the
  node are those of one and the same function. `Candidate.IsCoherent` gathers what they lean on, and
  `Node.isCoherent_of_candidate?` says that it holds of whatever classifying finds, on each of its
  ways and in every tree.
-/

import ArrowLint.Proofs.Candidate.Body
import ArrowLint.Proofs.Candidate.ClassBody

namespace ArrowLint

open Node

/-- Whether the parts of a candidate agree with one another and with the tree around `c.node`. -/
structure Candidate.IsCoherent (c : Candidate) : Prop where
  body : ∃ body, c.node.field .body = some body
  entry_isSome_iff : c.entry.isSome = true ↔ c.shape = .propertyValue
  /-- The `entry` is the method itself, or the member that holds the function as its value. -/
  entry_eq : ∀ entry, c.entry = some entry →
    c.node.kind = .methodDefinition ∧ entry = c.node ∨
      c.node.parent = some entry ∧ entry.field .value = some c.node
  classMethod_iff : c.role = .classMethod ↔ ∃ entry parent, c.entry = some entry ∧
    entry.parent = some parent ∧ parent.kind = .classBody
  context_ne_none : c.role = .classMethod → c.context ≠ .none
  arrow_iff_kind : c.role = .arrow ↔ c.node.kind = .arrowFunction
  arrow_iff_shape : c.node.kind = .arrowFunction ↔
    c.shape = .arrowExpressionBody ∨ c.shape = .arrowSingleReturn
  isDefaultExport_iff : c.isDefaultExport = true ↔ c.shape = .defaultExport
  bodyShape_of_arrowExpressionBody : c.shape = .arrowExpressionBody →
    c.bodyShape = .expressionBody
  bodyShape_of_arrowSingleReturn : c.shape = .arrowSingleReturn → c.bodyShape ≠ .expressionBody
  /-- Where the shape is `blockSingleReturn`, `singleReturn` and `returnedExpression` find the same
      expression. -/
  returned : c.bodyShape = .blockSingleReturn → ∃ body statement expression,
    c.node.field .body = some body ∧ body.singleReturn = some statement ∧
    statement.returnArgument = some expression ∧ body.returnedExpression = some expression

namespace Node

variable {n entry : Node} {c : Candidate}

/-! ## Members -/

/-- Below a class body the context of a node is not `none`. -/
theorem context_ne_none_of_classBody {context : Context} (h : n.context = .ok context)
    (hclass : ∃ a ∈ n.ancestors, a.kind = .classBody) : context ≠ .none := by
  rintro rfl
  rcases contextOf_eq_ok h with ⟨hprototype, -⟩ | ⟨-, hcontext⟩
  · cases hprototype
  · obtain ⟨a, ha, hk⟩ := hclass
    have hany : n.ancestors.any (·.kind == .classBody) = true :=
      List.any_eq_true.2 ⟨a, ha, beq_iff_eq.2 hk⟩
    rw [if_pos hany] at hcontext
    cases hcontext

namespace Makes

theorem entry_isSome_iff (h : n.Makes c) : c.entry.isSome = true ↔ c.shape = .propertyValue := by
  cases h.form with
  | defaultExport _ _ _ shape _ _ entry => simp [shape, entry]
  | plain _ _ _ shape _ entry => simp [shape, entry]
  | memberValue _ _ _ _ _ shape _ _ _ _ entry => simp [shape, entry]
  | method _ shape _ _ _ _ _ entry => simp [shape, entry]
  | arrowExpression _ _ _ shape _ _ entry => simp [shape, entry]
  | arrowReturn _ _ _ _ shape _ _ entry => simp [shape, entry]

theorem role_eq_classMethod_iff (h : n.Makes c) :
    c.role = .classMethod ↔ ∃ entry, c.entry = some entry ∧ entry.isClassMember = true := by
  cases h.form with
  | defaultExport _ _ _ _ role _ entry => simp [role, entry]
  | plain kind _ _ _ _ entry =>
    rcases kind with ⟨-, role⟩ | ⟨-, role⟩
    · simp [role, entry]
    · simp [role, entry]
  | memberValue _ _ _ _ _ _ role _ _ _ entry => simp [role, entry, memberRole_eq_classMethod_iff]
  | method _ _ role _ _ _ _ entry => simp [role, entry, memberRole_eq_classMethod_iff]
  | arrowExpression _ _ _ _ role _ entry => simp [role, entry]
  | arrowReturn _ _ _ _ _ role _ entry => simp [role, entry]

/-- An `entry` that is a member of a class has the class body above `n`, be it a method or a
    field. -/
theorem exists_classBody (h : n.Makes c) (he : c.entry = some entry)
    (hclass : entry.isClassMember = true) : ∃ a ∈ n.ancestors, a.kind = .classBody := by
  obtain ⟨parent, hparent, hk⟩ := isClassMember_iff.1 hclass
  refine ⟨parent, ?_, hk⟩
  rcases h.entry_eq he with rfl | hentry
  · rw [ancestors_of_parent hparent]
    exact List.mem_cons_self
  · rw [ancestors_of_parent hentry, ancestors_of_parent hparent]
    simp

/-! ## Arrow functions and exports -/

theorem role_eq_arrow_iff (h : n.Makes c) : c.role = .arrow ↔ n.kind = .arrowFunction := by
  cases h.form with
  | defaultExport kind _ _ _ role =>
    rcases kind with kind | kind
    · simp [kind, role]
    · simp [kind, role]
  | plain kind =>
    rcases kind with ⟨kind, role⟩ | ⟨kind, role⟩
    · simp [kind, role]
    · simp [kind, role]
  | memberValue kind _ _ _ _ _ role => simp [kind, role, memberRole_ne_arrow]
  | method kind _ role => simp [kind, role, memberRole_ne_arrow]
  | arrowExpression kind _ _ _ role => simp [kind, role]
  | arrowReturn kind _ _ _ _ role => simp [kind, role]

theorem kind_eq_arrowFunction_iff (h : n.Makes c) :
    n.kind = .arrowFunction ↔ c.shape = .arrowExpressionBody ∨ c.shape = .arrowSingleReturn := by
  refine ⟨fun hk => ?_, fun hs => ?_⟩
  · cases h.form with
    | arrowExpression _ _ _ shape => exact .inl shape
    | arrowReturn _ _ _ _ shape => exact .inr shape
    | defaultExport kind => simp [hk] at kind
    | plain kind => simp [hk] at kind
    | memberValue kind => simp [hk] at kind
    | method kind => simp [hk] at kind
  · refine Classical.byContradiction fun hk => ?_
    obtain ⟨hexpression, hreturn⟩ := h.shape_of_ne_arrowFunction hk
    exact hs.elim hexpression hreturn

theorem isDefaultExport_iff (h : n.Makes c) :
    c.isDefaultExport = true ↔ c.shape = .defaultExport := by
  cases h.form with
  | defaultExport _ _ _ shape _ _ _ isDefaultExport => simp [shape, isDefaultExport]
  | plain _ _ _ shape _ _ isDefaultExport => simp [shape, isDefaultExport]
  | memberValue _ _ _ _ _ shape _ _ _ _ _ isDefaultExport => simp [shape, isDefaultExport]
  | method _ shape _ _ _ _ _ _ isDefaultExport => simp [shape, isDefaultExport]
  | arrowExpression _ _ _ shape _ _ _ isDefaultExport => simp [shape, isDefaultExport]
  | arrowReturn _ _ _ _ shape _ _ _ isDefaultExport => simp [shape, isDefaultExport]

/-- The shape `arrowExpressionBody` is that of the arrow functions whose `bodyShape` is
    `expressionBody`. -/
theorem bodyShape_of_arrow (h : n.Makes c) (hk : n.kind = .arrowFunction) :
    c.shape = .arrowExpressionBody ↔ c.bodyShape = .expressionBody := by
  rw [h.bodyShape]
  cases h.form with
  | arrowExpression _ body_eq bodyKind shape =>
    rw [bodyShape_eq_expressionBody_iff body_eq]
    simp [shape, bodyKind]
  | arrowReturn _ body_eq bodyKind _ shape =>
    rw [bodyShape_eq_expressionBody_iff body_eq]
    simp [shape, bodyKind]
  | defaultExport kind => simp [hk] at kind
  | plain kind => simp [hk] at kind
  | memberValue kind => simp [hk] at kind
  | method kind => simp [hk] at kind

end Makes

/-! ## Candidates -/

/-- Whatever the tree and the node, the candidate that `candidate?` finds in `n` has `n` for its
    node and `IsCoherent`. -/
theorem isCoherent_of_candidate? (h : n.candidate? = .ok (some c)) :
    c.node = n ∧ c.IsCoherent := by
  have hmakes := makes_of_candidate? h
  obtain rfl := hmakes.node
  refine ⟨rfl, {
    body := hmakes.body
    entry_isSome_iff := hmakes.entry_isSome_iff
    entry_eq := fun entry he => hmakes.method_or_value he
    classMethod_iff := ?_
    context_ne_none := fun hrole => ?_
    arrow_iff_kind := hmakes.role_eq_arrow_iff
    arrow_iff_shape := hmakes.kind_eq_arrowFunction_iff
    isDefaultExport_iff := hmakes.isDefaultExport_iff
    bodyShape_of_arrowExpressionBody := fun hs => ?_
    bodyShape_of_arrowSingleReturn := fun hs => ?_
    returned := fun hbody => ?_ }⟩
  · rw [hmakes.role_eq_classMethod_iff]
    simp only [isClassMember_iff, exists_and_left]
  · obtain ⟨entry, he, hclass⟩ := hmakes.role_eq_classMethod_iff.1 hrole
    exact context_ne_none_of_classBody hmakes.context (hmakes.exists_classBody he hclass)
  · exact (hmakes.bodyShape_of_arrow (hmakes.kind_eq_arrowFunction_iff.2 (.inl hs))).1 hs
  · rw [Ne, ← hmakes.bodyShape_of_arrow (hmakes.kind_eq_arrowFunction_iff.2 (.inr hs)), hs]
    simp
  · obtain ⟨body, hb⟩ := hmakes.body
    obtain ⟨expression, hreturns⟩ :=
      (bodyShape_eq_blockSingleReturn_iff hb).1 (hmakes.bodyShape ▸ hbody)
    obtain ⟨statement, hs, ha⟩ := Option.bind_eq_some_iff.1 (returns_iff.1 hreturns).2
    exact ⟨body, statement, expression, hb, hs, ha, hreturns.returnedExpression_eq⟩

/-- The method `memberOfPrototype`, of an object far down in a class, is a coherent candidate. -/
theorem isCoherent_memberOfPrototype :
    ∃ c, memberOfPrototype.candidate? = .ok (some c) ∧ c.shape = .propertyValue ∧
      c.role = .objectMethod ∧ c.bodyShape = .blockSingleReturn ∧
      c.node = memberOfPrototype ∧ c.IsCoherent :=
  ⟨_, rfl, rfl, rfl, rfl, isCoherent_of_candidate? rfl⟩

end Node

end ArrowLint
