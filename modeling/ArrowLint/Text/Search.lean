/-
  ArrowLint.Text.Search

  Looking for one sequence of characters in another, and cutting a sequence up at a
  separator.
-/

namespace ArrowLint.Text

/-- Whether `part` stands somewhere in a list. The empty one always does. -/
def occursIn [BEq α] (part : List α) : List α → Bool
  | [] => part.isEmpty
  | c :: rest => part.isPrefixOf (c :: rest) || occursIn part rest

/-- A `part` occurs in `whole` just when `whole` is the part with something on either side. -/
theorem occursIn_iff [BEq α] [LawfulBEq α] {part whole : List α} :
    occursIn part whole = true ↔ ∃ before after, whole = before ++ part ++ after := by
  induction whole with
  | nil => simp [occursIn]
  | cons c rest ih =>
    simp only [occursIn, Bool.or_eq_true, List.isPrefixOf_iff_prefix, ih]
    constructor
    · rintro (⟨after, h⟩ | ⟨before, after, h⟩)
      · exact ⟨[], after, by simp [h]⟩
      · exact ⟨c :: before, after, by simp [h]⟩
    · rintro ⟨before, after, h⟩
      cases before with
      | nil => exact Or.inl ⟨after, by simpa using h.symm⟩
      | cons b before =>
        simp only [List.cons_append, List.cons.injEq] at h
        exact Or.inr ⟨before, after, h.2⟩

/-- The pieces of a list between its `separator`s, always at least one. -/
def splitAt [BEq α] (separator : α) : List α → List (List α)
  | [] => [[]]
  | c :: rest =>
    if c == separator then [] :: splitAt separator rest
    else
      match splitAt separator rest with
      | [] => [[c]]
      | piece :: pieces => (c :: piece) :: pieces

/-- Whether `part` stands somewhere in `whole`. -/
def contains (whole part : String) : Bool :=
  occursIn part.toList whole.toList

/-- Whether `whole` starts with `start`. -/
def startsWith (whole start : String) : Bool :=
  start.toList.isPrefixOf whole.toList

/-- Whether `whole` ends with `stop`. -/
def endsWith (whole stop : String) : Bool :=
  stop.toList.isSuffixOf whole.toList

end ArrowLint.Text
