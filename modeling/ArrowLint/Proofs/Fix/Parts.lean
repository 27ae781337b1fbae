/-
  ArrowLint.Proofs.Fix.Parts

  What a fix is put together from. A descriptor holds what its candidate takes over and nothing
  else (`Descriptor.Describes`), and its arrow function stands alone (`Arrow.IsAlone`): what comes
  before and after it is the business of the fix. One equation for every kind of fix says what that
  is and which bytes go. So the text of a reported fix is the arrow function that the node becomes
  (`Node.Becomes`), with something before and after it (`Rule.exists_becomes_of_check`).
-/

import ArrowLint.Proofs.Candidate.Finding

namespace ArrowLint

variable {c : Candidate} {d : Descriptor} {a : Arrow} {style : ReturnStyle} {entry : Node}

/-! ## Descriptors -/

/-- What a descriptor `d` holds is what the candidate `c` hands over. -/
structure Descriptor.Describes (d : Descriptor) (c : Candidate) : Prop where
  name : d.name = c.name
  isAsync : d.isAsync = c.isAsync
  parameters : c.parameterTexts = .ok d.parameters
  body : c.node.field .body = some d.body
  returnType : c.returnTypeText = .ok d.returnType
  typeParameters : c.node.fieldText .typeParameters = .ok d.typeParameters
  modifiers : c.modifierTexts = .ok d.modifiers

theorem Candidate.describes_of_descriptor (h : c.descriptor = .ok d) : d.Describes c := by
  unfold descriptor at h
  split at h
  · cases h
  · next body hb =>
    obtain ⟨parameters, hp, h⟩ := bind_eq_ok_iff.1 h
    obtain ⟨returnType, hr, h⟩ := bind_eq_ok_iff.1 h
    obtain ⟨typeParameters, ht, h⟩ := bind_eq_ok_iff.1 h
    obtain ⟨modifiers, hm, h⟩ := bind_eq_ok_iff.1 h
    obtain rfl := Except.ok.inj h
    exact ⟨rfl, rfl, hp, hb, hr, ht, hm⟩

/-! ## Fixes -/

/-- Whether the `lead` and the `tail` of an arrow function are empty. -/
structure Arrow.IsAlone (a : Arrow) : Prop where
  lead : a.lead = ""
  tail : a.tail = ""

namespace Arrow

theorem IsAlone.render_eq (h : a.IsAlone) :
    a.render = (if a.isAsync then "async " else "") ++ a.typeParameters ++ "("
      ++ ", ".intercalate a.parameters ++ ")" ++ a.returnType ++ " => " ++ a.body := by
  simp [render, h.lead, h.tail]

theorem IsAlone.render_between (h : a.IsAlone) (lead tail : String) :
    { a with lead := lead, tail := tail }.render = lead ++ a.render ++ tail := by
  simp [render, h.lead, h.tail, String.append_assoc]

theorem IsAlone.render_after (h : a.IsAlone) (lead : String) :
    { a with lead := lead }.render = lead ++ a.render := by
  simp [render, h.lead, String.append_assoc]

theorem IsAlone.render_before (h : a.IsAlone) (tail : String) :
    { a with tail := tail }.render = a.render ++ tail := by
  simp [render, h.tail, String.append_assoc]

end Arrow

theorem Descriptor.isAlone_arrow {shape : BodyShape} (h : d.arrow shape style = .ok a) :
    a.IsAlone := by
  obtain ⟨body, -, rfl⟩ := map_eq_ok_iff.1 h
  exact ⟨rfl, rfl⟩

/-- Where the bytes of a node end if the semicolon that is written directly behind it counts. -/
def Node.stopWithSemicolon (n : Node) : Nat :=
  match n.nextSibling with
  | some sibling => if sibling.isWrittenSemicolon then sibling.stop else n.stop
  | none => n.stop

theorem memberFix_of_isClassMember (h : entry.isClassMember = true) (ha : a.IsAlone) :
    memberFix entry d a = ⟨⟨entry.start, entry.stopWithSemicolon⟩,
      " ".intercalate (d.modifiers ++ [d.name]) ++ " = " ++ a.render ++ ";"⟩ := by
  rw [memberFix, if_pos h]
  dsimp only
  rw [ha.render_between, Node.stopWithSemicolon]
  cases entry.nextSibling with
  | none => rfl
  | some sibling => cases hs : sibling.isWrittenSemicolon <;> simp [hs]

theorem memberFix_of_not_isClassMember (h : entry.isClassMember = false) (ha : a.IsAlone) :
    memberFix entry d a = ⟨⟨entry.start, entry.stop⟩, d.name ++ ": " ++ a.render⟩ := by
  rw [memberFix, if_neg (by simp [h]), ha.render_after]
  rfl

namespace Candidate

theorem fixWith_of_member (hs : c.shape = .propertyValue) (he : c.entry = some entry) :
    c.fixWith d a = memberFix entry d a := by
  rw [fixWith, hs, he]

/-- A candidate without an `entry` is replaced itself. -/
theorem fixWith_of_entry_eq_none (he : c.entry = none) :
    c.fixWith d a = ⟨⟨c.node.start, c.node.stop⟩,
      Arrow.render (if c.isDefaultExport then
        if c.node.isFollowedBySemicolon then a else { a with tail := ";" }
      else if c.role == .declaration then
        { a with lead := "const " ++ d.name ++ " = ", tail := ";" }
      else a)⟩ := by
  unfold fixWith
  rw [he]
  cases c.shape <;> rfl

theorem fixWith_of_defaultExport (he : c.entry = none) (hx : c.isDefaultExport = true)
    (ha : a.IsAlone) : c.fixWith d a = ⟨⟨c.node.start, c.node.stop⟩,
      a.render ++ if c.node.isFollowedBySemicolon then "" else ";"⟩ := by
  rw [fixWith_of_entry_eq_none he, if_pos hx]
  split
  · rw [String.append_empty]
  · rw [ha.render_before]

theorem fixWith_of_declaration (he : c.entry = none) (hx : c.isDefaultExport = false)
    (hr : c.role = .declaration) (ha : a.IsAlone) : c.fixWith d a =
      ⟨⟨c.node.start, c.node.stop⟩, "const " ++ d.name ++ " = " ++ a.render ++ ";"⟩ := by
  rw [fixWith_of_entry_eq_none he, if_neg (by simp [hx]), if_pos (by simp [hr]),
    ha.render_between]

theorem fixWith_of_bare (he : c.entry = none) (hx : c.isDefaultExport = false)
    (hr : c.role ≠ .declaration) :
    c.fixWith d a = ⟨⟨c.node.start, c.node.stop⟩, a.render⟩ := by
  rw [fixWith_of_entry_eq_none he, if_neg (by simp [hx]), if_neg (by simp [hr])]

/-- The text of `fixWith` is something before and after the arrow function, which it leaves as it
    is. -/
theorem exists_text_fixWith (c : Candidate) (d : Descriptor) (ha : a.IsAlone) :
    ∃ lead tail, (c.fixWith d a).text = lead ++ a.render ++ tail := by
  unfold fixWith
  split
  · next entry _ _ =>
    cases hm : entry.isClassMember with
    | true => exact ⟨_, ";", by rw [memberFix_of_isClassMember hm ha]⟩
    | false =>
      exact ⟨_, "", by rw [memberFix_of_not_isClassMember hm ha, String.append_empty]⟩
  · dsimp only
    split
    · split
      · exact ⟨"", "", by simp⟩
      · exact ⟨"", ";", by rw [ha.render_before, String.empty_append]⟩
    · split
      · exact ⟨_, ";", ha.render_between _ _⟩
      · exact ⟨"", "", by simp⟩

theorem keepsReturnType_of_memberRole (hr : c.role = entry.memberRole)
    (hx : c.isDefaultExport = false) : c.keepsReturnType = false := by
  simp only [keepsReturnType, hr, hx, Node.memberRole]
  split <;> rfl

end Candidate

/-! ## The arrow function of a node -/

/-- Whether `a` is the arrow function that `n` becomes in a return `style`: the one that the
    descriptor of its candidate gives. -/
def Node.Becomes (n : Node) (style : ReturnStyle) (a : Arrow) : Prop :=
  ∃ c d, n.candidate? = .ok (some c) ∧ c.descriptor = .ok d ∧ d.arrow c.bodyShape style = .ok a

/-- A node `Becomes` one arrow function at most. -/
theorem Node.Becomes.unique {n : Node} {a' : Arrow} (h : n.Becomes style a)
    (h' : n.Becomes style a') : a = a' := by
  obtain ⟨c, d, hc, hd, ha⟩ := h
  obtain ⟨c', d', hc', hd', ha'⟩ := h'
  obtain rfl := Option.some.inj (Except.ok.inj (hc.symm.trans hc'))
  obtain rfl := Except.ok.inj (hd.symm.trans hd')
  exact Except.ok.inj (ha.symm.trans ha')

theorem Node.Becomes.isAlone {n : Node} (h : n.Becomes style a) : a.IsAlone := by
  obtain ⟨_, _, -, -, ha⟩ := h
  exact Descriptor.isAlone_arrow ha

/-- What is reported of `n` is a fix that writes the arrow function which `n` `Becomes`. -/
theorem Rule.exists_becomes_of_check {rule : Rule} {path : String} {n : Node} {v : Violation}
    (hv : rule.check path n = .ok (.violation v)) :
    ∃ a lead tail, n.Becomes rule.options.returnStyle a ∧
      v.fix.text = lead ++ a.render ++ tail := by
  obtain ⟨c, hc, hjudge⟩ := exists_judge_of_check hv
  obtain ⟨_, d, -, hd, hfix, -⟩ := judge_eq_violation hjudge
  obtain ⟨a, ha, hfix⟩ := map_eq_ok_iff.1 hfix
  have hbecomes : n.Becomes rule.options.returnStyle a := ⟨c, d, hc, hd, ha⟩
  obtain ⟨lead, tail, htext⟩ := c.exists_text_fixWith d hbecomes.isAlone
  exact ⟨a, lead, tail, hbecomes, by rw [← hfix, htext]⟩

end ArrowLint
