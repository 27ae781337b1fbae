/-
  ArrowLint.Proofs.Text.LowerCase

  Texts that differ in the case of their letters. What small letters are made of stays as it is
  (`Text.isSmall_of_mem_lowerAfter`), so putting a text in small letters twice is the same as doing
  it once (`Text.lower_lower`). Two texts are the same but for the case of their letters if the
  characters at the same places have the same small forms (`Text.IsRecasing`); unless there is a
  capital sigma in one of them, they are the same text in small letters
  (`Text.IsRecasing.lower_eq`), and in any case their points are at the same places.
-/

import ArrowLint.Text.LowerCase

namespace ArrowLint.Text

/-! ## The ranges of capitals -/

namespace CapitalRange

/-- The number of the first small form of a range. -/
def smallFirst (r : CapitalRange) : Nat :=
  (r.first + r.shift).toNat

/-- The number of the last small form of a range. -/
def smallLast (r : CapitalRange) : Nat :=
  (r.last + r.shift).toNat

/-- Whether only every other number of a range counts. -/
def isAlternate (r : CapitalRange) : Bool :=
  Nat.beq r.step 2 || Nat.beq r.first r.last

/-- Whether `q` holds no capital from `first` to `last`; if `alternate`, none of every other number
    among those. -/
def excludes (q : CapitalRange) (first last : Nat) (alternate : Bool) : Bool :=
  Nat.blt q.last first || Nat.blt last q.first
    || alternate && Nat.beq q.step 2 && Nat.beq ((first + q.first) % 2) 1

variable {q r : CapitalRange} {first last n : Nat} {alternate : Bool}

theorem includes_iff : r.includes n = true ↔
    r.first ≤ n ∧ n ≤ r.last ∧ (n - r.first) % r.step = 0 := by
  simp [includes, and_assoc]

theorem includes_eq_false_of_excludes (h : q.excludes first last alternate = true)
    (hfirst : first ≤ n) (hlast : n ≤ last) (hstep : alternate = true → (n - first) % 2 = 0) :
    q.includes n = false := by
  rw [Bool.eq_false_iff, Ne, includes_iff]
  rintro ⟨hq, hq', hmod⟩
  simp only [excludes, Bool.or_eq_true, Bool.and_eq_true, Nat.blt_eq, Nat.beq_eq] at h
  rcases h with (h | h) | ⟨⟨halt, hq2⟩, hparity⟩
  · omega
  · omega
  · -- both step by two, one on the even numbers and the other one on the odd
    have heven := hstep halt
    rw [hq2] at hmod
    omega

end CapitalRange

/-- No small form is one of the `capitalRanges` itself, nor is it the capital with the dot. -/
theorem capitalRanges_exclude : capitalRanges.all (fun r =>
    (⟨0x130, 0x130, 1, 0⟩ :: capitalRanges).all
      (·.excludes r.smallFirst r.smallLast r.isAlternate)) = true := by
  decide +kernel

/-- The small forms of `capitalRanges` are characters, and letters. -/
theorem capitalRanges_bounds : ∀ r ∈ capitalRanges, 0x61 ≤ r.first + r.shift ∧
    (r.smallLast < 0xd800 ∨ 0xdfff < r.smallFirst ∧ r.smallLast < 0x110000) ∧
    (r.step = 1 ∨ r.step = 2) ∧
    (0x80 ≤ r.smallFirst ∨ r.smallFirst = r.smallLast ∧
      (Char.ofNat r.smallFirst).toLower = Char.ofNat r.smallFirst) := by
  decide +kernel

/-! ## Small letters -/

/-- The small form `lowerChar` of a character: of ASCII as usual, of the capital with the dot two
    characters, of the `capitalRanges` their letters, and of all else itself. -/
theorem lowerChar_cases (c : Char) :
    c.toNat < 0x80 ∧ lowerChar c = [c.toLower] ∨
    c.toNat = 0x130 ∧ lowerChar c = ['i', Char.ofNat 0x307] ∨
    (∃ r ∈ capitalRanges, r.includes c.toNat = true ∧
      lowerChar c = [Char.ofNat (c.toNat + r.shift).toNat]) ∨
    (∀ r ∈ capitalRanges, r.includes c.toNat = false) ∧ lowerChar c = [c] := by
  unfold lowerChar
  dsimp only
  by_cases hascii : c.toNat < 0x80
  · rw [if_pos hascii]
    exact .inl ⟨hascii, rfl⟩
  · rw [if_neg hascii]
    split
    · next hdotted => exact .inr (.inl ⟨beq_iff_eq.1 hdotted, rfl⟩)
    · split
      · next r hr =>
        have hincludes := List.find?_some hr
        exact .inr (.inr (.inl ⟨r, List.mem_of_find?_eq_some hr, hincludes, rfl⟩))
      · next hnone =>
        refine .inr (.inr (.inr ⟨fun r hr => ?_, rfl⟩))
        simpa using List.find?_eq_none.1 hnone r hr

/-- Whether `c` is its own small form. -/
def IsSmall (c : Char) : Prop :=
  lowerChar c = [c]

instance (c : Char) : Decidable (IsSmall c) :=
  inferInstanceAs (Decidable (lowerChar c = [c]))

theorem IsSmall.ne_capitalSigma {c : Char} (h : IsSmall c) : c ≠ capitalSigma := by
  rintro rfl
  exact absurd h (by decide +kernel)

theorem toNat_ofNat {n : Nat} (h : n < 0xd800 ∨ 0xdfff < n ∧ n < 0x110000) :
    (Char.ofNat n).toNat = n := by
  rw [Char.ofNat, dif_pos h]
  rfl

/-- The small form of a capital `IsSmall`. -/
theorem isSmall_shifted {r : CapitalRange} {n : Nat} (hr : r ∈ capitalRanges)
    (hn : r.includes n = true) :
    IsSmall (Char.ofNat (n + r.shift).toNat) ∧ Char.ofNat (n + r.shift).toNat ≠ '.' := by
  obtain ⟨hletter, hvalid, hsteps, hascii⟩ := capitalRanges_bounds r hr
  obtain ⟨hfirst, hlast, hmod⟩ := CapitalRange.includes_iff.1 hn
  generalize hm : (n + r.shift).toNat = m
  -- all small forms keep the distance of the first one, so they lie as the capitals do
  have hfirst' : r.smallFirst ≤ m := by rw [CapitalRange.smallFirst]; omega
  have hlast' : m ≤ r.smallLast := by rw [CapitalRange.smallLast]; omega
  have hstep : r.isAlternate = true → (m - r.smallFirst) % 2 = 0 := by
    simp only [CapitalRange.isAlternate, Bool.or_eq_true, Nat.beq_eq, CapitalRange.smallFirst]
    rintro (h | h)
    · rw [h] at hmod
      omega
    · omega
  have hno : ∀ q ∈ (⟨0x130, 0x130, 1, 0⟩ :: capitalRanges : List CapitalRange),
      q.includes m = false := fun q hq =>
    CapitalRange.includes_eq_false_of_excludes
      (List.all_eq_true.1 (List.all_eq_true.1 capitalRanges_exclude r hr) q hq) hfirst' hlast' hstep
  have hchar : (Char.ofNat m).toNat = m := toNat_ofNat (by omega)
  refine ⟨?_, fun hpoint => ?_⟩
  · rcases lowerChar_cases (Char.ofNat m) with
      ⟨hsmall, h⟩ | ⟨hdotted, -⟩ | ⟨q, hq, hincludes, -⟩ | ⟨-, h⟩
    · -- only one small form is in ASCII
      rw [hchar] at hsmall
      rcases hascii with hbeyond | ⟨hsingle, hlower⟩
      · omega
      · obtain rfl : m = r.smallFirst := by omega
        rw [IsSmall, h, hlower]
    · rw [hchar] at hdotted
      have hrange := hno _ List.mem_cons_self
      rw [hdotted] at hrange
      exact absurd hrange (by decide)
    · rw [hchar, hno q (List.mem_cons_of_mem _ hq)] at hincludes
      cases hincludes
    · exact h
  · rw [hpoint] at hchar
    have hpoint' : '.'.toNat = 0x2e := rfl
    omega

/-! ## Texts in small letters -/

theorem toLower_ascii : ∀ n ∈ List.range 0x80, IsSmall (Char.ofNat n).toLower ∧
    ((Char.ofNat n).toLower = '.' → Char.ofNat n = '.') := by
  decide +kernel

theorem isSmall_of_mem_lowerChar {c d : Char} (h : d ∈ lowerChar c) : IsSmall d := by
  rcases lowerChar_cases c with ⟨hascii, hc⟩ | ⟨-, hc⟩ | ⟨r, hr, hincludes, hc⟩ | ⟨-, hc⟩
  · rw [hc, List.mem_singleton] at h
    rw [h, ← Char.ofNat_toNat c]
    exact (toLower_ascii c.toNat (List.mem_range.2 hascii)).1
  · have hi : IsSmall 'i' := by decide +kernel
    have hdot : IsSmall (Char.ofNat 0x307) := by decide +kernel
    simp only [hc, List.mem_cons, List.not_mem_nil, or_false] at h
    rcases h with rfl | rfl
    · exact hi
    · exact hdot
  · rw [hc, List.mem_singleton] at h
    rw [h]
    exact (isSmall_shifted hr hincludes).1
  · rw [hc, List.mem_singleton] at h
    rw [h]
    exact hc

theorem isSmall_smallSigma (before after : List Char) : IsSmall (smallSigma before after) := by
  unfold smallSigma
  split <;> decide +kernel

/-- Every character of `lowerAfter` is its own small form. -/
theorem isSmall_of_mem_lowerAfter {before cs : List Char} {d : Char}
    (h : d ∈ lowerAfter before cs) : IsSmall d := by
  induction cs generalizing before with
  | nil => cases h
  | cons c cs ih =>
    rw [lowerAfter, List.mem_append] at h
    rcases h with h | h
    · split at h
      · rw [List.mem_singleton.1 h]
        exact isSmall_smallSigma before cs
      · exact isSmall_of_mem_lowerChar h
    · exact ih h

/-- Without a `capitalSigma`, small forms do not depend on what stands around. -/
theorem lowerAfter_eq_flatMap {before cs : List Char} (h : capitalSigma ∉ cs) :
    lowerAfter before cs = cs.flatMap lowerChar := by
  induction cs generalizing before with
  | nil => rfl
  | cons c cs ih =>
    obtain ⟨hc, hcs⟩ := List.ne_and_not_mem_of_not_mem_cons h
    rw [lowerAfter, if_neg (by simpa using hc.symm), ih hcs, List.flatMap_cons]

/-- The function `lower` is idempotent. -/
theorem lower_lower (s : String) : lower (lower s) = lower s := by
  have hsmall : ∀ c ∈ (lower s).toList, IsSmall c := by
    intro c hc
    rw [lower, String.toList_ofList] at hc
    exact isSmall_of_mem_lowerAfter hc
  have hsigma : capitalSigma ∉ (lower s).toList := fun h => (hsmall _ h).ne_capitalSigma rfl
  have hmap : (lower s).toList.map lowerChar = (lower s).toList.map ([·]) :=
    List.map_congr_left hsmall
  rw [lower, lowerAfter_eq_flatMap hsigma, List.flatMap_def, hmap, ← List.flatMap_def,
    List.flatMap_singleton', String.ofList_toList]

/-! ## Texts that differ in case -/

/-- Whether `s` and `t` are the same but for the case of their letters: the characters at the same
    places have the same small forms. -/
def IsRecasing (s t : String) : Prop :=
  s.toList.map lowerChar = t.toList.map lowerChar

instance (s t : String) : Decidable (IsRecasing s t) :=
  inferInstanceAs (Decidable (s.toList.map lowerChar = t.toList.map lowerChar))

theorem IsRecasing.lower_eq {s t : String} (h : IsRecasing s t)
    (hs : capitalSigma ∉ s.toList) (ht : capitalSigma ∉ t.toList) : lower s = lower t := by
  rw [lower, lower, lowerAfter_eq_flatMap hs, lowerAfter_eq_flatMap ht, List.flatMap_def,
    List.flatMap_def, h]

theorem lowerChar_eq_point_iff {c : Char} : lowerChar c = ['.'] ↔ c = '.' := by
  constructor
  · intro h
    rcases lowerChar_cases c with ⟨hascii, hc⟩ | ⟨-, hc⟩ | ⟨r, hr, hincludes, hc⟩ | ⟨-, hc⟩
    · rw [hc] at h
      rw [← Char.ofNat_toNat c] at h ⊢
      exact (toLower_ascii c.toNat (List.mem_range.2 hascii)).2 (List.cons.inj h).1
    · rw [hc] at h
      cases h
    · rw [hc] at h
      exact absurd (List.cons.inj h).1 (isSmall_shifted hr hincludes).2
    · rw [hc] at h
      exact (List.cons.inj h).1
  · rintro rfl
    decide +kernel

end ArrowLint.Text
