/-
  ArrowLint.Proofs.Value.Escape

  Texts in JSON documents. A character is written in one of four ways (`Json.Spells`), each of
  which is told from the others by how it starts, so what has been written is read back
  character by character, whatever follows the text (`Json.readText_quoted`). All of it is
  plain ASCII.
-/

import ArrowLint.Value.Json
import ArrowLint.Value.JsonReader

namespace ArrowLint.Json

variable {c k : Char} {cs rest : List Char} {n : Nat}

/-! ## Plain ASCII -/

/-- Whether all characters of `cs` are ASCII ones. -/
def IsAscii (cs : List Char) : Prop :=
  ∀ c ∈ cs, c.toNat < 0x80

@[simp] theorem isAscii_nil : IsAscii [] :=
  fun _ h => absurd h List.not_mem_nil

@[simp] theorem isAscii_cons : IsAscii (c :: cs) ↔ c.toNat < 0x80 ∧ IsAscii cs :=
  List.forall_mem_cons

@[simp] theorem isAscii_append {ds : List Char} :
    IsAscii (cs ++ ds) ↔ IsAscii cs ∧ IsAscii ds :=
  List.forall_mem_append

/-! ## Hexadecimal digits -/

theorem hexValue?_hexDigit (h : n < 16) : hexValue? (Text.hexDigit n) = some n := by
  have hall : ∀ n < 16, hexValue? (Text.hexDigit n) = some n := by decide
  exact hall n h

theorem toNat_hexDigit_lt (h : n < 16) : (Text.hexDigit n).toNat < 0x80 := by
  have hall : ∀ n < 16, (Text.hexDigit n).toNat < 0x80 := by decide
  exact hall n h

theorem isAscii_hex (width n : Nat) : IsAscii (Text.hex width n) := by
  induction width generalizing n with
  | zero => exact isAscii_nil
  | succ width ih =>
    rw [Text.hex, isAscii_append, isAscii_cons]
    exact ⟨ih _, toNat_hexDigit_lt (Nat.mod_lt _ (by decide)), isAscii_nil⟩

/-- A number below 65536 is read back by `readUnit` from its four digits. -/
theorem readUnit_hex (h : n < 0x10000) (rest : List Char) :
    readUnit (Text.hex 4 n ++ rest) = some (n, rest) := by
  have hdigits : Text.hex 4 n = [Text.hexDigit (n / 16 / 16 / 16 % 16),
      Text.hexDigit (n / 16 / 16 % 16), Text.hexDigit (n / 16 % 16),
      Text.hexDigit (n % 16)] := rfl
  have hvalue : ∀ k, hexValue? (Text.hexDigit (k % 16)) = some (k % 16) :=
    fun k => hexValue?_hexDigit (Nat.mod_lt k (by decide))
  have hsum : ((n / 16 / 16 / 16 % 16 * 16 + n / 16 / 16 % 16) * 16 + n / 16 % 16) * 16 + n % 16
      = n := by
    omega
  rw [hdigits]
  simp only [List.cons_append, List.nil_append, readUnit, hvalue, Option.bind_eq_bind,
    Option.bind_some, hsum]

/-! ## Characters -/

/-- The ways in which the character `c` is written in a text. -/
inductive Spells (c : Char) : List Char → Prop
  /-- A letter behind a backslash, which `unescape?` reads. -/
  | letter (k : Char) (stands : unescape? k = some c) : Spells c ['\\', k]
  /-- The character itself. -/
  | plain (ascii : c.toNat < 0x80) (mark : c ≠ '\x22') (backslash : c ≠ '\\') : Spells c [c]
  /-- One `unit`. -/
  | unit (first : c.toNat < 0x10000) : Spells c (unit c.toNat)
  /-- A high `unit` and a low one. -/
  | pair (beyond : 0x10000 ≤ c.toNat) : Spells c
      (Json.unit (0xd800 + (c.toNat - 0x10000) / 0x400)
        ++ Json.unit (0xdc00 + (c.toNat - 0x10000) % 0x400))

theorem spells_escaped (c : Char) : Spells c (escaped c) := by
  have hnumber : ∀ k : Char, c.toNat = k.toNat → c = k := fun k h => by
    rw [← Char.ofNat_toNat c, h, Char.ofNat_toNat]
  unfold escaped
  dsimp only
  split
  · next h =>
    rw [Bool.or_eq_true, beq_iff_eq, beq_iff_eq] at h
    rcases h with rfl | rfl
    · exact .letter _ rfl
    · exact .letter _ rfl
  · next hmarks =>
    rw [Bool.or_eq_true, beq_iff_eq, beq_iff_eq, not_or] at hmarks
    split
    · next h => exact .letter _ (by rw [eq_of_beq h]; rfl)
    split
    · next h => exact .letter _ (by rw [eq_of_beq h]; rfl)
    split
    · next h => exact .letter _ (by rw [eq_of_beq h]; rfl)
    split
    · next h => exact .letter _ (by rw [hnumber '\x08' (eq_of_beq h)]; rfl)
    split
    · next h => exact .letter _ (by rw [hnumber '\x0c' (eq_of_beq h)]; rfl)
    split
    · next h =>
      rw [Bool.and_eq_true, decide_eq_true_eq, decide_eq_true_eq] at h
      exact .plain (by omega) hmarks.1 hmarks.2
    split
    · next h => exact .unit h
    · next h => exact .pair (by omega)

theorem ne_of_unescape? (h : unescape? k = some c) : k ≠ 'u' ∧ k.toNat < 0x80 := by
  unfold unescape? at h
  split at h
  all_goals first | decide | cases h

theorem toNat_lt (c : Char) : c.toNat < 0x110000 := by
  have hvalid : c.toNat.isValidChar := c.valid
  unfold Nat.isValidChar at hvalid
  omega

/-- No character has the number of a high unit. -/
theorem isHigh_toNat (c : Char) :
    (decide (0xd800 ≤ c.toNat) && decide (c.toNat < 0xdc00)) = false := by
  have hvalid : c.toNat.isValidChar := c.valid
  unfold Nat.isValidChar at hvalid
  rw [← Bool.not_eq_true, Bool.and_eq_true, decide_eq_true_eq, decide_eq_true_eq]
  omega

theorem readNumbered_unit (h : c.toNat < 0x10000) (rest : List Char) :
    readNumbered (Text.hex 4 c.toNat ++ rest) = some (c, rest) := by
  have hlow := isHigh_toNat c
  rw [readNumbered, readUnit_hex h]
  simp only [Option.bind_eq_bind, Option.bind_some, hlow, Bool.false_eq_true, if_false,
    Char.ofNat_toNat]

/-- A `high` unit is read together with the `low` one behind it. -/
theorem readNumbered_of_high {high low : Nat} {more : List Char}
    (hhigh : (decide (0xd800 ≤ high) && decide (high < 0xdc00)) = true)
    (hread : readUnit cs = some (high, '\\' :: 'u' :: more))
    (hmore : readUnit more = some (low, rest)) :
    readNumbered cs
      = some (Char.ofNat (0x10000 + (high - 0xd800) * 0x400 + (low - 0xdc00)), rest) := by
  rw [readNumbered, hread]
  simp only [Option.bind_eq_bind, Option.bind_some, hhigh, if_true, hmore]

theorem readNumbered_pair (h : 0x10000 ≤ c.toNat) (rest : List Char) :
    readNumbered (Text.hex 4 (0xd800 + (c.toNat - 0x10000) / 0x400)
      ++ '\\' :: 'u' :: (Text.hex 4 (0xdc00 + (c.toNat - 0x10000) % 0x400) ++ rest))
      = some (c, rest) := by
  have hlt := toNat_lt c
  obtain ⟨n, hn⟩ := Nat.exists_eq_add_of_le h
  rw [hn] at hlt ⊢
  rw [Nat.add_sub_cancel_left]
  have hhigh : (decide (0xd800 ≤ 0xd800 + n / 0x400)
      && decide (0xd800 + n / 0x400 < 0xdc00)) = true := by
    rw [Bool.and_eq_true, decide_eq_true_eq, decide_eq_true_eq]
    omega
  -- the upper bits from the high unit, the lower ones from the low unit
  have hsum : 0x10000 + (0xd800 + n / 0x400 - 0xd800) * 0x400 + (0xdc00 + n % 0x400 - 0xdc00)
      = c.toNat := by
    omega
  rw [readNumbered_of_high hhigh (readUnit_hex (by omega) _) (readUnit_hex (by omega) rest), hsum,
    Char.ofNat_toNat]

namespace Spells

theorem isAscii (h : Spells c cs) : IsAscii cs := by
  cases h with
  | letter k hk => simp [(ne_of_unescape? hk).2]
  | plain hascii _ _ => simp [hascii]
  | unit _ => simp [Json.unit, isAscii_hex]
  | pair _ => simp [Json.unit, isAscii_hex]

theorem length_pos (h : Spells c cs) : 0 < cs.length := by
  cases h with
  | letter k hk => simp
  | plain hascii _ _ => simp
  | unit _ => simp [Json.unit]
  | pair _ => simp [Json.unit]

theorem readText_letter (hk : unescape? k = some c) (fuel : Nat) (read rest : List Char) :
    readText (fuel + 1) read ('\\' :: k :: rest) = readText fuel (c :: read) rest := by
  rw [readText, hk]
  exact (ne_of_unescape? hk).1

theorem readText_plain (hmark : c ≠ '\x22') (hbackslash : c ≠ '\\') (fuel : Nat)
    (read rest : List Char) :
    readText (fuel + 1) read (c :: rest) = readText fuel (c :: read) rest := by
  rw [readText]
  · exact hmark
  · exact fun _ h => absurd h hbackslash
  · exact fun _ _ h => absurd h hbackslash

/-- What `Spells` a character is read as that character. -/
theorem readText_append (h : Spells c cs) (fuel : Nat) (read rest : List Char) :
    readText (fuel + 1) read (cs ++ rest) = readText fuel (c :: read) rest := by
  cases h with
  | letter k hk => exact readText_letter hk fuel read rest
  | plain _ hmark hbackslash => exact readText_plain hmark hbackslash fuel read rest
  | unit hfirst =>
    simp only [Json.unit, List.cons_append, readText]
    rw [readNumbered_unit hfirst]
  | pair hbeyond =>
    simp only [Json.unit, List.cons_append, List.append_assoc, readText]
    rw [readNumbered_pair hbeyond]

end Spells

/-! ## Texts -/

theorem isAscii_quoted (s : String) : IsAscii (quoted s) := by
  have hchars : IsAscii (s.toList.flatMap escaped) := by
    intro d hd
    obtain ⟨c, -, hd⟩ := List.mem_flatMap.1 hd
    exact (spells_escaped c).isAscii d hd
  simp [quoted, hchars]

theorem length_le_length_escaped (cs : List Char) : cs.length ≤ (cs.flatMap escaped).length := by
  induction cs with
  | nil => exact Nat.le_refl 0
  | cons c cs ih =>
    have hpos := (spells_escaped c).length_pos
    rw [List.flatMap_cons, List.length_append, List.length_cons]
    omega

/-- Characters that are `escaped` are read back up to the closing mark. -/
theorem readText_escaped {fuel : Nat} (read : List Char) (h : cs.length < fuel)
    (rest : List Char) :
    readText fuel read (cs.flatMap escaped ++ '\x22' :: rest)
      = some (String.ofList (read.reverse ++ cs), rest) := by
  induction cs generalizing fuel read with
  | nil =>
    obtain ⟨fuel, rfl⟩ := Nat.exists_eq_succ_of_ne_zero (Nat.ne_of_gt h)
    simp [readText]
  | cons c cs ih =>
    obtain ⟨fuel, rfl⟩ := Nat.exists_eq_succ_of_ne_zero (Nat.ne_of_gt (Nat.zero_lt_of_lt h))
    rw [List.flatMap_cons, List.append_assoc, (spells_escaped c).readText_append,
      ih (c :: read) (Nat.lt_of_succ_lt_succ h), List.reverse_cons, List.append_assoc]
    rfl

/-- A text that is `quoted` is read back, with whatever follows it. -/
theorem readText_quoted (s : String) (rest : List Char) :
    ∃ more, quoted s ++ rest = '\x22' :: more ∧
      readText (more.length + 1) [] more = some (s, rest) := by
  refine ⟨s.toList.flatMap escaped ++ '\x22' :: rest, by simp [quoted], ?_⟩
  have hlen := length_le_length_escaped s.toList
  rw [readText_escaped [] (by rw [List.length_append]; omega), List.reverse_nil, List.nil_append,
    String.ofList_toList]

end ArrowLint.Json
