/-
  ArrowLint.Proofs.Candidate.Origin

  Where candidates come from. `Node.Makes n c` says all that is known of a candidate `c` that
  classifying finds in a node `n`: the facts that every candidate takes over from its node,
  and one of six forms (`Node.Form`), which tie the shape, the role, the name and the member
  of the candidate to the node and its parent.

    * `Node.makes_of_candidate?` takes a successful classification apart; what follows about
      candidates rests on it and never opens the classification itself;
    * `Node.exists_candidate?`: in a legible tree, classifying answers for every node.
-/

import ArrowLint.Proofs.Candidate.Place

namespace ArrowLint

namespace Node

/-! ## Members -/

theorem isClassMember_iff {n : Node} :
    n.isClassMember = true ↔ ∃ parent, n.parent = some parent ∧ parent.kind = .classBody := by
  unfold isClassMember
  cases n.parent with
  | none => simp
  | some parent => simp

theorem memberRole_eq_classMethod_iff {n : Node} :
    n.memberRole = .classMethod ↔ n.isClassMember = true := by
  unfold memberRole
  split <;> simp [*]

theorem memberRole_ne_arrow {n : Node} : n.memberRole ≠ .arrow := by
  unfold memberRole
  split <;> simp

/-! ## Candidates -/

/-- The ways in which a node is a candidate, each with what it fixes of `c`. -/
inductive Form (n : Node) (c : Candidate) : Prop
  | defaultExport {parent : Node}
      (kind : n.kind = .functionDeclaration ∨ n.kind = .functionExpression)
      (parent_eq : n.parent = some parent) (exports : parent.isDefaultExport = true)
      (shape : c.shape = .defaultExport) (role : c.role = .declaration)
      (name : n.fieldText .name = .ok c.name) (entry : c.entry = none)
      (isDefaultExport : c.isDefaultExport = true) (isGenerator : c.isGenerator = n.isGenerator)
  | plain
      (kind : n.kind = .functionDeclaration ∧ c.role = .declaration ∨
        n.kind = .functionExpression ∧ c.role = .expression)
      (exports : ∀ parent, n.parent = some parent → parent.isDefaultExport = false)
      (member : ∀ parent, n.parent = some parent → n.kind = .functionExpression →
        parent.isMember = false)
      (shape : c.shape = .plainFunction)
      (name : n.fieldText .name = .ok c.name) (entry : c.entry = none)
      (isDefaultExport : c.isDefaultExport = false) (isGenerator : c.isGenerator = n.isGenerator)
  | memberValue {member key : Node}
      (kind : n.kind = .functionExpression)
      (parent_eq : n.parent = some member) (exports : member.isDefaultExport = false)
      (isMember : member.isMember = true) (isValue : n.isParentField .value = true)
      (shape : c.shape = .propertyValue) (role : c.role = member.memberRole)
      (key_eq : member.memberKey = some key) (keyKind : key.kind.isPropertyName = true)
      (name : key.text = .ok c.name) (entry : c.entry = some member)
      (isDefaultExport : c.isDefaultExport = false) (isGenerator : c.isGenerator = n.isGenerator)
  | method {key : Node}
      (kind : n.kind = .methodDefinition)
      (shape : c.shape = .propertyValue) (role : c.role = n.memberRole)
      (key_eq : n.field .name = some key) (keyKind : key.kind.isPropertyName = true)
      (accessor : ∀ t ∈ n.tokensBefore (some key), t.kind ≠ .getKeyword ∧ t.kind ≠ .setKeyword)
      (name : key.text = .ok c.name) (entry : c.entry = some n)
      (isDefaultExport : c.isDefaultExport = false)
      (isGenerator : c.isGenerator = true ↔
        (∃ t ∈ n.tokensBefore (some key), t.kind = .star) ∨ n.isGenerator = true)
  | arrowExpression {body : Node}
      (kind : n.kind = .arrowFunction)
      (body_eq : n.field .body = some body) (bodyKind : body.kind ≠ .statementBlock)
      (shape : c.shape = .arrowExpressionBody) (role : c.role = .arrow)
      (name : n.fieldText .name = .ok c.name) (entry : c.entry = none)
      (isDefaultExport : c.isDefaultExport = false) (isGenerator : c.isGenerator = n.isGenerator)
  | arrowReturn {body : Node}
      (kind : n.kind = .arrowFunction)
      (body_eq : n.field .body = some body) (bodyKind : body.kind = .statementBlock)
      (returns : body.singleReturn.isSome = true)
      (shape : c.shape = .arrowSingleReturn) (role : c.role = .arrow)
      (name : n.fieldText .name = .ok c.name) (entry : c.entry = none)
      (isDefaultExport : c.isDefaultExport = false) (isGenerator : c.isGenerator = n.isGenerator)

/-- What the candidate `c` has from the node `n` it is found in. -/
structure Makes (n : Node) (c : Candidate) : Prop where
  node : c.node = n
  isNamed : n.label.isNamed = true
  body : ∃ body, n.field .body = some body
  bodyShape : c.bodyShape = n.bodyShape
  context : n.context = .ok c.context
  isAsync : c.isAsync = n.isAsync
  form : n.Form c

/-! ## Classifying taken apart -/

variable {n : Node} {role : Role} {shape : Shape} {c : Candidate}

theorem exists_of_not_isNone {α : Type} {o : Option α} (h : ¬ o.isNone = true) :
    ∃ a, o = some a := by
  cases o with
  | none => exact absurd rfl h
  | some a => exact ⟨a, rfl⟩

theorem candidateNamed_eq_ok {name : String} (h : n.candidateNamed role shape name = .ok c) :
    ∃ context, n.context = .ok context ∧
      c = { node := n, role := role, shape := shape, bodyShape := n.bodyShape, context := context
            isAsync := n.isAsync, isGenerator := n.isGenerator, name := name } := by
  obtain ⟨context, hc, rfl⟩ := map_eq_ok_iff.1 h
  exact ⟨context, hc, rfl⟩

theorem toCandidate_eq_ok (h : n.toCandidate role shape = .ok c) :
    ∃ name context, n.fieldText .name = .ok name ∧ n.context = .ok context ∧
      c = { node := n, role := role, shape := shape, bodyShape := n.bodyShape, context := context
            isAsync := n.isAsync, isGenerator := n.isGenerator, name := name } := by
  obtain ⟨name, hn, h⟩ := bind_eq_ok_iff.1 h
  obtain ⟨context, hc, rfl⟩ := candidateNamed_eq_ok h
  exact ⟨name, context, hn, hc, rfl⟩

theorem makes_of_propertyCandidate? {member : Node} (hk : n.kind = .functionExpression)
    (hp : n.parent = some member) (he : member.isDefaultExport = false)
    (hm : member.isMember = true) (hn : n.label.isNamed = true)
    (hb : ∃ body, n.field .body = some body)
    (h : n.propertyCandidate? member = .ok (some c)) : n.Makes c := by
  unfold propertyCandidate? at h
  split at h
  · cases h
  · next hv =>
    cases hkey : member.memberKey with
    | none =>
      rw [hkey] at h
      cases h
    | some key =>
      simp only [hkey] at h
      split at h
      · next hname =>
        obtain ⟨name, ht, h⟩ := bind_eq_ok_iff.1 h
        obtain ⟨d, hd, h⟩ := bind_eq_ok_iff.1 h
        obtain ⟨context, hc, rfl⟩ := candidateNamed_eq_ok hd
        obtain rfl := Option.some.inj (Except.ok.inj h)
        have hv : n.isParentField .value = true := by simpa using hv
        exact ⟨rfl, hn, hb, rfl, hc, rfl,
          .memberValue hk hp he hm hv rfl rfl hkey hname ht rfl rfl rfl⟩
      · cases h

/-- A function that is neither exported by default nor the value of a member `Makes` its
    `toCandidate`. -/
theorem makes_of_plainFunction
    (hk : n.kind = .functionDeclaration ∨ n.kind = .functionExpression)
    (hn : n.label.isNamed = true) (hb : ∃ body, n.field .body = some body)
    (he : ∀ parent, n.parent = some parent → parent.isDefaultExport = false)
    (hm : ∀ parent, n.parent = some parent → n.kind = .functionExpression →
      parent.isMember = false)
    (h : n.toCandidate (if n.kind == .functionExpression then .expression else .declaration)
      .plainFunction = .ok c) : n.Makes c := by
  obtain ⟨name, context, ht, hc, rfl⟩ := toCandidate_eq_ok h
  refine ⟨rfl, hn, hb, rfl, hc, rfl, .plain ?_ he hm rfl ht rfl rfl rfl⟩
  rcases hk with hk | hk
  · exact .inl ⟨hk, by rw [hk]; rfl⟩
  · exact .inr ⟨hk, by rw [hk]; rfl⟩

theorem makes_of_functionCandidate?
    (hk : n.kind = .functionDeclaration ∨ n.kind = .functionExpression)
    (hn : n.label.isNamed = true) (h : n.functionCandidate? = .ok (some c)) : n.Makes c := by
  unfold functionCandidate? at h
  split at h
  · cases h
  · next hb =>
    have hb := exists_of_not_isNone hb
    cases hp : n.parent with
    | none =>
      simp only [hp] at h
      obtain ⟨d, hd, h⟩ := map_eq_ok_iff.1 h
      obtain rfl := Option.some.inj h
      -- without a parent there is neither an export nor a member to look for
      have none_parent : ∀ parent, n.parent ≠ some parent := fun parent => by rw [hp]; simp
      exact makes_of_plainFunction hk hn hb (fun p hp' => absurd hp' (none_parent p))
        (fun p hp' => absurd hp' (none_parent p)) hd
    | some parent =>
      have only_parent : ∀ p, n.parent = some p → p = parent := fun p hp' =>
        Option.some.inj (hp'.symm.trans hp)
      simp only [hp] at h
      split at h
      · next he =>
        obtain ⟨d, hd, h⟩ := map_eq_ok_iff.1 h
        obtain ⟨name, context, ht, hc, rfl⟩ := toCandidate_eq_ok hd
        obtain rfl := Option.some.inj h
        exact ⟨rfl, hn, hb, rfl, hc, rfl, .defaultExport hk hp he rfl rfl ht rfl rfl rfl⟩
      · next he =>
        have he : parent.isDefaultExport = false := by simpa using he
        split at h
        · next hm =>
          obtain ⟨hk, hm⟩ := Bool.and_eq_true_iff.1 hm
          exact makes_of_propertyCandidate? (beq_iff_eq.1 hk) hp he hm hn hb h
        · next hm =>
          obtain ⟨d, hd, h⟩ := map_eq_ok_iff.1 h
          obtain rfl := Option.some.inj h
          refine makes_of_plainFunction hk hn hb (fun p hp' => ?_) (fun p hp' hk => ?_) hd
          · rw [only_parent p hp', he]
          · rw [only_parent p hp']
            simpa [hk] using hm

theorem makes_of_methodCandidate? (hk : n.kind = .methodDefinition)
    (hn : n.label.isNamed = true) (h : n.methodCandidate? = .ok (some c)) : n.Makes c := by
  unfold methodCandidate? at h
  cases hkey : n.field .name with
  | none =>
    rw [hkey] at h
    cases h
  | some key =>
    simp only [hkey] at h
    split at h
    · cases h
    · next hname =>
      split at h
      · cases h
      · next hacc =>
        obtain ⟨name, ht, h⟩ := bind_eq_ok_iff.1 h
        obtain ⟨d, hd, h⟩ := bind_eq_ok_iff.1 h
        obtain ⟨context, hc, rfl⟩ := candidateNamed_eq_ok hd
        obtain rfl := Option.some.inj (Except.ok.inj h)
        -- neither test has struck: the name is plain, there is a body, and this is no accessor
        simp only [Bool.or_eq_true, Bool.not_eq_true', not_or, Bool.not_eq_false] at hname
        simp only [Bool.or_eq_true, List.contains_iff_mem, List.mem_map, not_or, not_exists,
          not_and] at hacc
        refine ⟨rfl, hn, exists_of_not_isNone hname.2, rfl, hc, rfl,
          .method hk rfl rfl hkey hname.1 (fun t ht => ⟨hacc.1 t ht, hacc.2 t ht⟩) ht rfl rfl ?_⟩
        simp

theorem makes_of_arrowCandidate? (hk : n.kind = .arrowFunction)
    (hn : n.label.isNamed = true) (h : n.arrowCandidate? = .ok (some c)) : n.Makes c := by
  unfold arrowCandidate? at h
  cases hbody : n.field .body with
  | none =>
    rw [hbody] at h
    cases h
  | some body =>
    simp only [hbody] at h
    split at h
    · next hb =>
      obtain ⟨d, hd, h⟩ := map_eq_ok_iff.1 h
      obtain ⟨name, context, ht, hc, rfl⟩ := toCandidate_eq_ok hd
      obtain rfl := Option.some.inj h
      exact ⟨rfl, hn, ⟨body, hbody⟩, rfl, hc, rfl,
        .arrowExpression hk hbody (by simpa using hb) rfl rfl ht rfl rfl rfl⟩
    · next hb =>
      split at h
      · next hr =>
        obtain ⟨d, hd, h⟩ := map_eq_ok_iff.1 h
        obtain ⟨name, context, ht, hc, rfl⟩ := toCandidate_eq_ok hd
        obtain rfl := Option.some.inj h
        exact ⟨rfl, hn, ⟨body, hbody⟩, rfl, hc, rfl,
          .arrowReturn hk hbody (by simpa using hb) hr rfl rfl ht rfl rfl rfl⟩
      · cases h

/-- The candidate that `candidate?` finds in `n` is one that `n` `Makes`. -/
theorem makes_of_candidate? (h : n.candidate? = .ok (some c)) : n.Makes c := by
  unfold candidate? at h
  split at h
  · cases h
  · next hn =>
    have hn : n.label.isNamed = true := by simpa using hn
    split at h
    -- one branch a kind of function
    · next hk => exact makes_of_methodCandidate? hk hn h
    · next hk => exact makes_of_arrowCandidate? hk hn h
    · next hk => exact makes_of_functionCandidate? (.inl hk) hn h
    · next hk => exact makes_of_functionCandidate? (.inr hk) hn h
    · cases h

/-! ## Legible trees -/

theorem exists_candidateNamed (h : n.whole.IsLegible) (role : Role) (shape : Shape)
    (name : String) : ∃ c, n.candidateNamed role shape name = .ok c :=
  exists_map_eq_ok _ (exists_context h)

theorem exists_toCandidate (h : n.whole.IsLegible) (role : Role) (shape : Shape) :
    ∃ c, n.toCandidate role shape = .ok c := by
  obtain ⟨name, hn⟩ := exists_fieldText h .name
  obtain ⟨c, hc⟩ := exists_candidateNamed h role shape name
  exact ⟨c, bind_eq_ok_iff.2 ⟨name, hn, hc⟩⟩

theorem exists_memberCandidate {key : Node} (h : n.whole.IsLegible) (hk : key.whole.IsLegible)
    (role : Role) (shape : Shape) (f : Candidate → Candidate) :
    ∃ found, (do
      let c ← n.candidateNamed role shape (← key.text)
      return some (f c)) = Except.ok found := by
  obtain ⟨name, hn⟩ := exists_text hk
  obtain ⟨c, hc⟩ := exists_candidateNamed h role shape name
  exact ⟨some (f c), bind_eq_ok_iff.2 ⟨name, hn, bind_eq_ok_iff.2 ⟨c, hc, rfl⟩⟩⟩

theorem whole_of_memberKey {member key : Node} (h : member.memberKey = some key) :
    key.whole = member.whole := by
  simp only [memberKey, Option.orElse_eq_orElse, Option.orElse_eq_or, Option.or_eq_some_iff] at h
  rcases h with h | ⟨-, h | ⟨-, h⟩⟩
  · exact whole_of_field h
  · exact whole_of_field h
  · exact whole_of_field h

theorem exists_propertyCandidate? {member : Node} (h : n.whole.IsLegible)
    (hm : member.whole.IsLegible) : ∃ found, n.propertyCandidate? member = .ok found := by
  unfold propertyCandidate?
  split
  · exact ⟨none, rfl⟩
  · cases hkey : member.memberKey with
    | none => exact ⟨none, rfl⟩
    | some key =>
      dsimp only
      split
      · exact exists_memberCandidate h (by rwa [whole_of_memberKey hkey]) _ _ _
      · exact ⟨none, rfl⟩

theorem exists_functionCandidate? (h : n.whole.IsLegible) :
    ∃ found, n.functionCandidate? = .ok found := by
  unfold functionCandidate?
  split
  · exact ⟨none, rfl⟩
  · cases hp : n.parent with
    | none => exact exists_map_eq_ok _ (exists_toCandidate h _ _)
    | some parent =>
      dsimp only
      split
      · exact exists_map_eq_ok _ (exists_toCandidate h _ _)
      · split
        · exact exists_propertyCandidate? h (by rwa [whole_of_parent hp])
        · exact exists_map_eq_ok _ (exists_toCandidate h _ _)

theorem exists_methodCandidate? (h : n.whole.IsLegible) :
    ∃ found, n.methodCandidate? = .ok found := by
  unfold methodCandidate?
  cases hkey : n.field .name with
  | none => exact ⟨none, rfl⟩
  | some key =>
    dsimp only
    split
    · exact ⟨none, rfl⟩
    · split
      · exact ⟨none, rfl⟩
      · exact exists_memberCandidate h (by rwa [whole_of_field hkey]) _ _ _

theorem exists_arrowCandidate? (h : n.whole.IsLegible) :
    ∃ found, n.arrowCandidate? = .ok found := by
  unfold arrowCandidate?
  cases n.field .body with
  | none => exact ⟨none, rfl⟩
  | some body =>
    dsimp only
    split
    · exact exists_map_eq_ok _ (exists_toCandidate h _ _)
    · split
      · exact exists_map_eq_ok _ (exists_toCandidate h _ _)
      · exact ⟨none, rfl⟩

/-- In a legible tree `candidate?` answers for every node. -/
theorem exists_candidate? (h : n.whole.IsLegible) : ∃ found, n.candidate? = .ok found := by
  unfold candidate?
  split
  · exact ⟨none, rfl⟩
  · split
    · exact exists_methodCandidate? h
    · exact exists_arrowCandidate? h
    · exact exists_functionCandidate? h
    · exact exists_functionCandidate? h
    · exact ⟨none, rfl⟩

end Node

end ArrowLint
