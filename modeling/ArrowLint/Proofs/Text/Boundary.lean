/-
  ArrowLint.Proofs.Text.Boundary

  Offsets between characters. Taken as bytes, a text may be cut at any offset, but only some
  of the cuts leave texts behind: those at a boundary (`Bytes.IsBoundary`), where one
  character has ended and the next one has not begun. What lies between two boundaries is a
  text again (`Bytes.exists_ofText_eq_slice`).
-/

import ArrowLint.Text.Bytes

namespace ArrowLint

namespace Bytes

/-! ## Texts as bytes -/

theorem ofText_append (s t : String) : ofText (s ++ t) = ofText s ++ ofText t := by
  simp [ofText, String.toByteArray_append]

theorem ofText_empty : ofText "" = [] := by
  simp [ofText]

theorem ofText_injective {s t : String} (h : ofText s = ofText t) : s = t := by
  have hs := text?_ofText s
  rw [h, text?_ofText] at hs
  exact (Option.some.inj hs).symm

theorem eq_empty_of_ofText_eq_nil {s : String} (h : ofText s = []) : s = "" :=
  ofText_injective (h.trans ofText_empty.symm)

/-- The bytes `b` are no text just when they are the UTF-8 form of none. -/
theorem text?_eq_none_iff {b : Bytes} : text? b = none ↔ ∀ s, ofText s ≠ b := by
  rw [Option.eq_none_iff_forall_ne_some]
  exact forall_congr' fun s => not_congr text?_eq_some_iff

/-! ## Boundaries -/

/-- Whether `offset` lies between two characters of `source`, or at one of its ends. -/
def IsBoundary (source : String) (offset : Nat) : Prop :=
  ∃ before after, source = before ++ after ∧ (ofText before).length = offset

theorem isBoundary_zero (source : String) : IsBoundary source 0 :=
  ⟨"", source, by simp, by rw [ofText_empty]; rfl⟩

theorem isBoundary_length (source : String) : IsBoundary source (ofText source).length :=
  ⟨source, "", by simp, rfl⟩

theorem IsBoundary.le {source : String} {offset : Nat} (h : IsBoundary source offset) :
    offset ≤ (ofText source).length := by
  obtain ⟨before, after, rfl, rfl⟩ := h
  rw [ofText_append, List.length_append]
  omega

/-- The boundaries of `source` are the lengths of what its first characters come to. -/
theorem isBoundary_iff {source : String} {offset : Nat} :
    IsBoundary source offset ↔ ∃ i ∈ List.range (source.toList.length + 1),
      (ofText (String.ofList (source.toList.take i))).length = offset := by
  constructor
  · rintro ⟨before, after, rfl, rfl⟩
    -- the characters ahead of the cut are the first ones
    refine ⟨before.toList.length, ?_, ?_⟩
    · rw [List.mem_range, String.toList_append, List.length_append]
      omega
    · rw [String.toList_append, List.take_left, String.ofList_toList]
  · rintro ⟨i, -, h⟩
    refine ⟨_, String.ofList (source.toList.drop i), ?_, h⟩
    rw [← String.ofList_append, List.take_append_drop, String.ofList_toList]

instance (source : String) (offset : Nat) : Decidable (IsBoundary source offset) :=
  decidable_of_iff _ isBoundary_iff.symm

/-- The bytes behind a boundary are the UTF-8 form of a text. -/
theorem IsBoundary.exists_ofText_eq_drop {source : String} {offset : Nat}
    (h : IsBoundary source offset) : ∃ s, ofText s = (ofText source).drop offset := by
  obtain ⟨before, after, rfl, rfl⟩ := h
  refine ⟨after, ?_⟩
  rw [ofText_append, List.drop_left]

/-- Of two ways to cut a text in two, the one with the shorter first part cuts within the first part
    of the other. -/
theorem exists_append_of_length_le {a b c d : String} (h : a ++ b = c ++ d)
    (hle : (ofText a).length ≤ (ofText c).length) : ∃ middle, c = a ++ middle := by
  have hl : a.toList ++ b.toList = c.toList ++ d.toList := by
    rw [← String.toList_append, h, String.toList_append]
  rcases List.append_eq_append_iff.1 hl with ⟨middle, hc, -⟩ | ⟨middle, ha, -⟩
  · refine ⟨String.ofList middle, ?_⟩
    apply String.ext
    rw [String.toList_append, String.toList_ofList, hc]
  · -- the longer way round leaves nothing between the two cuts
    have ha' : a = c ++ String.ofList middle := by
      apply String.ext
      rw [String.toList_append, String.toList_ofList, ha]
    have hm : ofText (String.ofList middle) = [] := by
      apply List.eq_nil_of_length_eq_zero
      rw [ha', ofText_append, List.length_append] at hle
      omega
    refine ⟨"", ?_⟩
    rw [ha', eq_empty_of_ofText_eq_nil hm]
    simp

/-- The bytes between two boundaries are the UTF-8 form of a text. -/
theorem exists_ofText_eq_slice {source : String} {start stop : Nat}
    (hstart : IsBoundary source start) (hstop : IsBoundary source stop) (hle : start ≤ stop) :
    ∃ s, ofText s = (ofText source).slice start stop := by
  obtain ⟨a, b, rfl, rfl⟩ := hstart
  obtain ⟨c, d, h, rfl⟩ := hstop
  -- the second cut lies behind the first, so its first part starts with the other's
  obtain ⟨middle, rfl⟩ := exists_append_of_length_le h hle
  refine ⟨middle, ?_⟩
  rw [slice, h, ofText_append (a ++ middle), ofText_append a, List.append_assoc, List.drop_left,
    List.length_append, Nat.add_sub_cancel_left, List.take_left]

end Bytes

end ArrowLint
