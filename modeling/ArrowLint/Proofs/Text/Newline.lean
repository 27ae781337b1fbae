/-
  ArrowLint.Proofs.Text.Newline

  The ends of lines, in bytes. Reading a file puts a line feed in the place of every return, and
  of every return and line feed; `Bytes.unified` does the same to bytes, where no other character
  has a part in it (`Bytes.ofText_unifyNewlines`). Behind the end of a line it starts afresh
  (`Bytes.unified_append`), and it leaves bytes as they are just when there is no return among
  them (`Bytes.isPrefix_iff_of_unified_isPrefix`).
-/

import ArrowLint.Proofs.Text.Boundary
import ArrowLint.Text.Line

namespace ArrowLint

namespace Bytes

/-! ## Characters as bytes -/

theorem ofText_ofList (cs : List Char) :
    ofText (String.ofList cs) = cs.flatMap String.utf8EncodeChar := by
  simp [ofText, String.toByteArray_ofList, List.utf8Encode]

theorem ofText_eq_flatMap (s : String) : ofText s = s.toList.flatMap String.utf8EncodeChar := by
  rw [← ofText_ofList, String.ofList_toList]

theorem le_toNat_ofNat {n : Nat} (hle : 128 ≤ n) (hlt : n < 256) :
    128 ≤ (UInt8.ofNat n).toNat := by
  rw [UInt8.toNat_ofNat']
  omega

/-- A character below 128 is a byte of its own, and the bytes of all others are from 128 on. -/
theorem utf8EncodeChar_cases (c : Char) :
    (c.toNat < 128 ∧ String.utf8EncodeChar c = [UInt8.ofNat c.toNat]) ∨
      (128 ≤ c.toNat ∧ ∀ b ∈ String.utf8EncodeChar c, 128 ≤ b.toNat) := by
  have hval : c.val.toNat = c.toNat := rfl
  by_cases h : c.toNat < 128
  · have hone : c.val.toNat ≤ 0x7f := by omega
    refine .inl ⟨h, ?_⟩
    unfold String.utf8EncodeChar
    simp only [hone, if_true]
    rfl
  · have hmore : ¬c.val.toNat ≤ 0x7f := by omega
    refine .inr ⟨by omega, fun b hb => ?_⟩
    unfold String.utf8EncodeChar at hb
    simp only [hmore, if_false] at hb
    -- of two bytes, three or four, each has its first bit set
    split at hb
    · simp only [List.mem_cons, List.not_mem_nil, or_false] at hb
      rcases hb with rfl | rfl <;> exact le_toNat_ofNat (by omega) (by omega)
    · split at hb
      · simp only [List.mem_cons, List.not_mem_nil, or_false] at hb
        rcases hb with rfl | rfl | rfl <;> exact le_toNat_ofNat (by omega) (by omega)
      · simp only [List.mem_cons, List.not_mem_nil, or_false] at hb
        rcases hb with rfl | rfl | rfl | rfl <;> exact le_toNat_ofNat (by omega) (by omega)

/-! ## Returns -/

/-- The byte of a return, `'\r'`. -/
def carriageReturn : UInt8 := 13

/-- Bytes with a line feed in the place of every return, and of every return and line feed;
    `afterReturn` says whether a return is directly ahead. -/
def unifiedAfter (afterReturn : Bool) : Bytes → Bytes
  | [] => []
  | b :: rest =>
    if b = carriageReturn then newline :: unifiedAfter true rest
    else if b = newline ∧ afterReturn = true then unifiedAfter false rest
    else b :: unifiedAfter false rest

/-- The bytes `data` with a line feed at the end of every line. -/
def unified (data : Bytes) : Bytes :=
  unifiedAfter false data

/-- Whether `lines` are complete, whatever ends them, with `rest` behind them. -/
def AreLines (lines rest : Bytes) : Prop :=
  lines = [] ∨ lines.getLast? = some newline ∨
    lines.getLast? = some carriageReturn ∧ rest.head? ≠ some newline

/-! ## What is left of them -/

theorem length_unifiedAfter_le (afterReturn : Bool) (data : Bytes) :
    (unifiedAfter afterReturn data).length ≤ data.length := by
  induction data generalizing afterReturn with
  | nil => exact Nat.le_refl 0
  | cons b data ih =>
    rw [unifiedAfter]
    split
    · exact Nat.succ_le_succ (ih true)
    · split
      · exact Nat.le_succ_of_le (ih false)
      · exact Nat.succ_le_succ (ih false)

/-- Up to the first return, `unified` leaves bytes as they are. -/
theorem unified_append_of_not_mem {data : Bytes} (h : carriageReturn ∉ data) (rest : Bytes) :
    unified (data ++ rest) = data ++ unified rest := by
  unfold unified
  induction data with
  | nil => rfl
  | cons b data ih =>
    obtain ⟨hb, hdata⟩ := not_or.1 fun hor => h (List.mem_cons.2 hor)
    rw [List.cons_append, unifiedAfter, if_neg (Ne.symm hb), if_neg (by simp), ih hdata,
      List.cons_append]

theorem unified_eq_self {data : Bytes} (h : carriageReturn ∉ data) : unified data = data := by
  have happend := unified_append_of_not_mem h []
  rwa [List.append_nil, show unified [] = [] from rfl, List.append_nil] at happend

/-- Bytes that start with what `unified` makes of them have no return. -/
theorem not_mem_of_unified_isPrefix {data : Bytes} (h : unified data <+: data) :
    carriageReturn ∉ data := by
  unfold unified at h
  induction data with
  | nil => exact List.not_mem_nil
  | cons b data ih =>
    rw [unifiedAfter] at h
    split at h
    · next hb =>
      -- a return does not stay
      rw [hb] at h
      exact absurd (List.cons_prefix_cons.1 h).1 (by decide)
    · next hb =>
      rw [if_neg (by simp)] at h
      exact List.not_mem_cons_of_ne_of_not_mem (Ne.symm hb) (ih (List.cons_prefix_cons.1 h).2)

/-- A list `whole` that starts with `unified data` starts with `data` itself just when there is no
    return in it. -/
theorem isPrefix_iff_of_unified_isPrefix {data whole : Bytes} (h : unified data <+: whole) :
    data <+: whole ↔ carriageReturn ∉ data := by
  constructor
  · intro hdata
    have hle := length_unifiedAfter_le false data
    exact not_mem_of_unified_isPrefix (List.prefix_of_prefix_length_le h hdata hle)
  · intro hno
    rwa [unified_eq_self hno] at h

/-! ## Line by line -/

/-- A return ahead makes no difference to `unifiedAfter` unless a line feed comes first. -/
theorem unifiedAfter_true {data : Bytes} (h : data.head? ≠ some newline) :
    unifiedAfter true data = unifiedAfter false data := by
  cases data with
  | nil => rfl
  | cons b data =>
    have hb : b ≠ newline := fun hb => h (by rw [hb]; rfl)
    simp only [unifiedAfter, hb, false_and, if_false]

theorem unifiedAfter_append (afterReturn : Bool) {lines rest : Bytes}
    (h : lines.getLast? = some newline ∨
      lines.getLast? = some carriageReturn ∧ rest.head? ≠ some newline) :
    unifiedAfter afterReturn (lines ++ rest)
      = unifiedAfter afterReturn lines ++ unifiedAfter false rest := by
  induction lines generalizing afterReturn with
  | nil => simp at h
  | cons b lines ih =>
    cases lines with
    | nil =>
      rw [List.getLast?_singleton] at h
      rcases h with hb | ⟨hb, hrest⟩
      · obtain rfl := Option.some.inj hb
        cases afterReturn with
        | false => rfl
        | true => rfl
      · obtain rfl := Option.some.inj hb
        show newline :: unifiedAfter true rest = newline :: unifiedAfter false rest
        rw [unifiedAfter_true hrest]
    | cons b' lines =>
      rw [List.getLast?_cons_cons] at h
      rw [List.cons_append, unifiedAfter, unifiedAfter, ih true h, ih false h]
      split
      · rfl
      · split
        · rfl
        · rfl

/-- Complete lines are unified apart from the `rest` behind them. -/
theorem unified_append {lines rest : Bytes} (h : AreLines lines rest) :
    unified (lines ++ rest) = unified lines ++ unified rest := by
  rcases h with rfl | h
  · rfl
  · exact unifiedAfter_append false h

/-! ## In texts -/

theorem head?_flatMap_ne_newline {cs : List Char} (h : ∀ rest, cs ≠ '\n' :: rest) :
    (cs.flatMap String.utf8EncodeChar).head? ≠ some newline := by
  cases cs with
  | nil => simp
  | cons c cs =>
    rw [List.flatMap_cons]
    rcases utf8EncodeChar_cases c with ⟨hc, henc⟩ | ⟨-, hall⟩
    · rw [henc]
      intro hb
      have hb : UInt8.ofNat c.toNat = newline := Option.some.inj hb
      have hn : c.toNat = 10 := by
        have hn := congrArg UInt8.toNat hb
        rw [UInt8.toNat_ofNat'] at hn
        have h10 : newline.toNat = 10 := rfl
        omega
      refine h cs ?_
      rw [show c = '\n' from Char.toNat_inj.1 hn]
    · obtain ⟨b, bs, henc⟩ := List.exists_cons_of_ne_nil (String.utf8EncodeChar_ne_nil (c := c))
      rw [henc]
      intro hb
      have hb : b = newline := Option.some.inj hb
      have hle := hall b (by rw [henc]; exact List.mem_cons_self)
      rw [hb] at hle
      exact absurd hle (by decide)

/-- The return is the only character that has its byte. -/
theorem carriageReturn_not_mem_utf8EncodeChar {c : Char} (hc : c ≠ '\r') :
    carriageReturn ∉ String.utf8EncodeChar c := by
  intro hmem
  rcases utf8EncodeChar_cases c with ⟨hlt, henc⟩ | ⟨-, hall⟩
  · rw [henc, List.mem_singleton] at hmem
    have hn := congrArg UInt8.toNat hmem
    rw [UInt8.toNat_ofNat'] at hn
    have h13 : carriageReturn.toNat = 13 := rfl
    exact hc (Char.toNat_inj.1 (show c.toNat = 13 by omega))
  · exact absurd (hall _ hmem) (by decide)

/-- Unifying newlines before encoding is `unified` after it. -/
theorem flatMap_unifyNewlines (cs : List Char) :
    (Text.unifyNewlines cs).flatMap String.utf8EncodeChar
      = unified (cs.flatMap String.utf8EncodeChar) := by
  unfold unified
  fun_induction Text.unifyNewlines cs with
  | case1 rest ih =>
    rw [List.flatMap_cons, ih, List.flatMap_cons, List.flatMap_cons]
    rfl
  | case2 rest hno ih =>
    rw [List.flatMap_cons, ih, List.flatMap_cons,
      ← unifiedAfter_true (head?_flatMap_ne_newline fun rest' heq => hno rest' heq)]
    rfl
  | case3 c rest h1 h2 ih =>
    rw [List.flatMap_cons, ih, List.flatMap_cons]
    exact (unified_append_of_not_mem (carriageReturn_not_mem_utf8EncodeChar h2) _).symm
  | case4 => rfl

/-- The bytes of a text with unified newlines are the `unified` bytes of the text. -/
theorem ofText_unifyNewlines (s : String) :
    ofText (String.ofList (Text.unifyNewlines s.toList)) = unified (ofText s) := by
  rw [ofText_ofList, flatMap_unifyNewlines, ← ofText_eq_flatMap]

/-- Whether there is no return in `s`. -/
def IsReturnFree (s : String) : Prop :=
  carriageReturn ∉ ofText s

instance (s : String) : Decidable (IsReturnFree s) :=
  inferInstanceAs (Decidable (carriageReturn ∉ ofText s))

@[simp]
theorem isReturnFree_append_iff {s t : String} :
    IsReturnFree (s ++ t) ↔ IsReturnFree s ∧ IsReturnFree t := by
  rw [IsReturnFree, ofText_append, List.mem_append, not_or]
  rfl

theorem isReturnFree_intercalate {separator : String} {texts : List String}
    (hs : IsReturnFree separator) (h : ∀ s ∈ texts, IsReturnFree s) :
    IsReturnFree (separator.intercalate texts) := by
  induction texts with
  | nil =>
    rw [String.intercalate_nil]
    decide
  | cons s texts ih =>
    have hfirst := h s List.mem_cons_self
    have hrest := ih fun t ht => h t (List.mem_cons_of_mem s ht)
    cases texts with
    | nil => rwa [String.intercalate_singleton]
    | cons t texts =>
      rw [String.intercalate_cons_cons]
      simp only [isReturnFree_append_iff]
      exact ⟨⟨hfirst, hs⟩, hrest⟩

end Bytes

end ArrowLint
