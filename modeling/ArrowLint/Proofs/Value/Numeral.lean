/-
  ArrowLint.Proofs.Value.Numeral

  Numbers in JSON documents. Both kinds are written by a sign and decimal digits, and one that is
  no whole number by a power of ten behind them; that is where the reader tells them apart.
  Numbers, unlike other values, do not say where they end: what follows must (`Json.Ends`).
-/

import ArrowLint.Proofs.Value.Escape

namespace ArrowLint.Json

variable {c : Char} {rest : List Char} {n : Nat}

/-! ## Digits -/

theorem digitsValue_toDigits (n : Nat) : digitsValue (Nat.toDigits 10 n) = n := by
  have h := Nat.ofDigitChars_ten_toDigits (n := n)
  rwa [Nat.ofDigitChars_eq_foldl] at h

theorem isDigit_of_mem_toDigits (h : c ∈ Nat.toDigits 10 n) : c.isDigit = true :=
  Nat.isDigit_of_mem_toDigits (by decide) (by decide) h

/-- The digits of `n` are read up to what is none. -/
theorem span_digits (n : Nat) (h : ∀ c ∈ rest.head?, c.isDigit = false) :
    (Nat.toDigits 10 n ++ rest).takeWhile Char.isDigit = Nat.toDigits 10 n ∧
      (Nat.toDigits 10 n ++ rest).dropWhile Char.isDigit = rest := by
  rw [List.takeWhile_append_of_pos fun c => isDigit_of_mem_toDigits,
    List.dropWhile_append_of_pos fun c => isDigit_of_mem_toDigits]
  cases rest with
  | nil => simp
  | cons c rest =>
    have hc : c.isDigit = false := h c rfl
    simp [hc]

theorem isDigit_of_mem_head? (h : c ∈ (Nat.toDigits 10 n ++ rest).head?) :
    c.isDigit = true := by
  obtain ⟨d, ds, hds⟩ := List.exists_cons_of_ne_nil (Nat.toDigits_ne_nil (n := n) (b := 10))
  rw [hds] at h
  obtain rfl : d = c := Option.some.inj h
  exact isDigit_of_mem_toDigits (hds ▸ List.mem_cons_self)

theorem toDigits_append_ne (hc : c.isDigit = false) (more : List Char) :
    Nat.toDigits 10 n ++ rest ≠ c :: more := by
  intro h
  rw [isDigit_of_mem_head? (congrArg List.head? h)] at hc
  cases hc

/-! ## Signs -/

/-- The minus sign of a negative number. -/
def sign (isNegative : Bool) : List Char :=
  if isNegative then ['-'] else []

/-- The whole number that a sign and the digits of `n` write. -/
def signed (isNegative : Bool) (n : Nat) : Int :=
  if isNegative then -n else n

theorem signed_natAbs (i : Int) : signed (i < 0) i.natAbs = i := by
  by_cases hi : i < 0
  · rw [signed, if_pos (decide_eq_true hi)]
    omega
  · rw [signed, if_neg (by simpa using hi)]
    omega

theorem toList_toString_int (i : Int) :
    (toString i).toList = sign (i < 0) ++ Nat.toDigits 10 i.natAbs := by
  cases i with
  | ofNat n => exact Nat.toList_repr
  | negSucc n =>
    show ("-" ++ (n + 1).repr).toList = _
    rw [String.toList_append, Nat.toList_repr, sign, if_pos (by simp)]
    rfl

theorem ofDecimal_eq (d : Decimal) : ofDecimal d
    = sign d.isNegative ++ (Nat.toDigits 10 d.digits ++ 'e' :: (toString d.exponent).toList) := by
  have hsign : (if d.isNegative then "-" else "").toList = sign d.isNegative := by
    cases d.isNegative with
    | false => rfl
    | true => rfl
  have hdigits : (toString d.digits).toList = Nat.toDigits 10 d.digits := Nat.toList_repr
  simp only [ofDecimal, String.toList_append, hsign, hdigits, List.append_assoc]
  rfl

/-- A number starts with a minus sign or a digit. -/
theorem number_ne {b : Bool} (hsign : c ≠ '-') (hdigit : c.isDigit = false)
    (more : List Char) : sign b ++ (Nat.toDigits 10 n ++ rest) ≠ c :: more := by
  cases b with
  | true => exact fun h => hsign (List.cons.inj h).1.symm
  | false => exact toDigits_append_ne hdigit more

theorem isAscii_number {b : Bool} (h : IsAscii rest) :
    IsAscii (sign b ++ (Nat.toDigits 10 n ++ rest)) := by
  have hsign : IsAscii (sign b) := by
    cases b with
    | false => exact isAscii_nil
    | true => exact isAscii_cons.2 ⟨by decide, isAscii_nil⟩
  have hdigits : IsAscii (Nat.toDigits 10 n) := by
    intro c hc
    have hdigit := isDigit_of_mem_toDigits hc
    rw [Char.isDigit, Bool.and_eq_true, decide_eq_true_eq, decide_eq_true_eq] at hdigit
    exact Nat.lt_of_le_of_lt hdigit.2 (by decide)
  exact isAscii_append.2 ⟨hsign, isAscii_append.2 ⟨hdigits, h⟩⟩

theorem isAscii_int (i : Int) : IsAscii (toString i).toList := by
  rw [toList_toString_int, ← List.append_nil (Nat.toDigits 10 _)]
  exact isAscii_number isAscii_nil

/-! ## Reading numbers -/

/-- Whether a number may end ahead of `rest`: before nothing, or before the comma or the line break
    that its place in a list or a table asks for. -/
def Ends (rest : List Char) : Prop :=
  ∀ c ∈ rest.head?, c = ',' ∨ c = '\n'

/-- Where a number `Ends`, neither its digits nor its fraction go on. -/
theorem Ends.head? (h : Ends rest) : ∀ c ∈ rest.head?, c.isDigit = false ∧ c ≠ '.' := by
  intro c hc
  rcases h c hc with rfl | rfl
  · decide
  · decide

theorem readExponent_of_ends (h : Ends rest) : readExponent rest = (none, rest) := by
  cases rest with
  | nil => rfl
  | cons c rest =>
    rcases h c rfl with rfl | rfl
    · simp [readExponent]
    · simp [readExponent]

/-- A power of ten is read by `readExponent` up to where it ends. -/
theorem readExponent_toString (e : Int) (h : Ends rest) :
    readExponent ('e' :: ((toString e).toList ++ rest)) = (some e, rest) := by
  obtain ⟨htake, hdrop⟩ := span_digits e.natAbs fun c hc => (h.head? c hc).1
  have hread : ∀ b, readExponent ('e' :: (sign b ++ (Nat.toDigits 10 e.natAbs ++ rest)))
      = (some (signed b e.natAbs), rest) := by
    intro b
    cases b with
    | true =>
      rw [sign, if_pos rfl, List.cons_append, List.nil_append, readExponent, if_pos (by rfl), htake,
        hdrop, digitsValue_toDigits]
      rfl
    | false =>
      rw [sign, if_neg (by decide), List.nil_append, readExponent, if_pos (by rfl), htake, hdrop,
        digitsValue_toDigits]
      · rfl
      · exact toDigits_append_ne rfl
      · exact toDigits_append_ne rfl
  rw [toList_toString_int, List.append_assoc, hread, signed_natAbs]

/-- The value that a sign and digits write, with a power of ten behind them if one is given. -/
def numberOf (isNegative : Bool) (n : Nat) : Option Int → Value
  | none => .int (signed isNegative n)
  | some e => .decimal ⟨isNegative, n, e⟩

theorem readNumber_append (isNegative : Bool) (n : Nat) {tail : List Char} {exponent : Option Int}
    (htail : ∀ c ∈ tail.head?, c.isDigit = false ∧ c ≠ '.')
    (hexponent : readExponent tail = (exponent, rest)) :
    readNumber (sign isNegative ++ (Nat.toDigits 10 n ++ tail))
      = some (numberOf isNegative n exponent, rest) := by
  obtain ⟨htake, hdrop⟩ := span_digits n fun c hc => (htail c hc).1
  -- no fraction: the reader looks for a point behind the digits, and simp for this below
  have hpoint : ∀ more, tail ≠ '.' :: more := by
    rintro more rfl
    exact (htail '.' rfl).2 rfl
  cases isNegative with
  | true =>
    rw [sign, if_pos rfl, List.cons_append, List.nil_append, readNumber, htake, hdrop]
    cases exponent with
    | none => simp [numberOf, signed, hexponent, digitsValue_toDigits]
    | some e => simp [numberOf, hexponent, digitsValue_toDigits]
  | false =>
    rw [sign, if_neg (by decide), List.nil_append, readNumber, htake, hdrop]
    · cases exponent with
      | none => simp [numberOf, signed, hexponent, digitsValue_toDigits]
      | some e => simp [numberOf, hexponent, digitsValue_toDigits]
    · exact toDigits_append_ne rfl

theorem readNumber_int (i : Int) (h : Ends rest) :
    readNumber ((toString i).toList ++ rest) = some (.int i, rest) := by
  rw [toList_toString_int, List.append_assoc,
    readNumber_append _ _ h.head? (readExponent_of_ends h), numberOf, signed_natAbs]

theorem readNumber_decimal (d : Decimal) (h : Ends rest) :
    readNumber (ofDecimal d ++ rest) = some (.decimal d, rest) := by
  have htail : ∀ c ∈ ('e' :: ((toString d.exponent).toList ++ rest)).head?,
      c.isDigit = false ∧ c ≠ '.' := by
    intro c hc
    obtain rfl : 'e' = c := Option.some.inj hc
    decide
  rw [ofDecimal_eq, List.append_assoc, List.append_assoc, List.cons_append,
    readNumber_append _ _ htail (readExponent_toString d.exponent h)]
  rfl

end ArrowLint.Json
