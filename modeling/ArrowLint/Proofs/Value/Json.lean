/-
  ArrowLint.Proofs.Value.Json

  Values in JSON documents. A document is read back as the value that it has been written for,
  provided that no table in the value has a key twice (`Value.KeysDiffer`): the reader keeps one
  entry for a key. So different values have different documents (`Json.document_inj`), however
  much the texts in them look like parts of a document; and all documents are plain ASCII.
-/

import ArrowLint.Proofs.Value.Numeral

namespace ArrowLint

/-! ## Values -/

/-- Whether no table in a value has a key twice. -/
inductive Value.KeysDiffer : Value → Prop
  | null : KeysDiffer .null
  | bool (b : Bool) : KeysDiffer (.bool b)
  | int (i : Int) : KeysDiffer (.int i)
  | decimal (d : Decimal) : KeysDiffer (.decimal d)
  | text (s : String) : KeysDiffer (.text s)
  | list (items : List Value) (inside : ∀ v ∈ items, KeysDiffer v) : KeysDiffer (.list items)
  | table (entries : List (String × Value)) (keys : (entries.map (·.1)).Nodup)
      (inside : ∀ e ∈ entries, KeysDiffer e.2) : KeysDiffer (.table entries)

attribute [simp] Value.KeysDiffer.null Value.KeysDiffer.bool Value.KeysDiffer.int
  Value.KeysDiffer.decimal Value.KeysDiffer.text

@[simp] theorem Value.keysDiffer_list {items : List Value} :
    (Value.list items).KeysDiffer ↔ ∀ v ∈ items, v.KeysDiffer :=
  ⟨fun | .list _ inside => inside, .list items⟩

@[simp] theorem Value.keysDiffer_table {entries : List (String × Value)} :
    (Value.table entries).KeysDiffer ↔
      (entries.map (·.1)).Nodup ∧ ∀ e ∈ entries, e.2.KeysDiffer :=
  ⟨fun | .table _ keys inside => ⟨keys, inside⟩, fun h => .table entries h.1 h.2⟩

/-- Entries with different keys are the entries of `ofEntries` as they stand. -/
theorem Table.ofEntries_of_nodup {entries : List (String × Value)}
    (h : (entries.map (·.1)).Nodup) : ofEntries entries = entries := by
  have hfold : ∀ t : Table, ((t ++ entries).map (·.1)).Nodup →
      entries.foldl (fun t entry => put t entry.1 entry.2) t = t ++ entries := by
    intro t ht
    clear h
    induction entries generalizing t with
    | nil => exact (List.append_nil t).symm
    | cons entry entries ih =>
      have hnew : has t entry.1 = false := by
        rw [has, List.any_eq_false]
        intro other hother
        rw [List.map_append, List.nodup_append] at ht
        have hne := ht.2.2 other.1 (List.mem_map_of_mem hother) entry.1 (by simp)
        simpa using hne
      have hput : put t entry.1 entry.2 = t ++ [entry] := by
        rw [put, if_neg (by simp [hnew])]
      rw [List.foldl_cons, hput, ih (t ++ [entry]) (by simpa using ht), List.append_assoc]
      rfl
  exact hfold [] h

namespace Json

variable {c : Char} {cs rest : List Char} {n depth fuel : Nat} {v : Value}

/-! ## Between values -/

theorem skipBlanks_cons (h : c ∉ [' ', '\n', '\r', '\t']) (rest : List Char) :
    skipBlanks (c :: rest) = c :: rest := by
  simp only [List.mem_cons, List.not_mem_nil, or_false, not_or] at h
  simp [skipBlanks, h]

theorem skipBlanks_lineBreak (depth : Nat) (rest : List Char) :
    skipBlanks (lineBreak depth ++ rest) = skipBlanks rest := by
  have hblanks : ∀ k, skipBlanks (List.replicate k ' ' ++ rest) = skipBlanks rest := by
    intro k
    induction k with
    | zero => rfl
    | succ k ih => exact ih
  exact hblanks (2 * depth)

/-- What `print` gives starts with a character that is neither white space nor a closing bracket. -/
theorem exists_print_eq_cons (depth : Nat) (v : Value) :
    ∃ c more, print depth v = c :: more ∧ c ∉ [' ', '\n', '\r', '\t', ']'] := by
  have hnumber : ∀ {b n tail}, ∃ c more, sign b ++ (Nat.toDigits 10 n ++ tail) = c :: more ∧
      c ∉ [' ', '\n', '\r', '\t', ']'] := by
    intro b n tail
    cases hcs : sign b ++ (Nat.toDigits 10 n ++ tail) with
    | nil => simp [Nat.toDigits_ne_nil] at hcs
    | cons c more =>
      refine ⟨c, more, rfl, fun hc => ?_⟩
      simp only [List.mem_cons, List.not_mem_nil, or_false] at hc
      rcases hc with rfl | rfl | rfl | rfl | rfl
      all_goals exact number_ne (by decide) (by decide) more hcs
  cases v with
  | null => exact ⟨_, _, rfl, by decide⟩
  | bool b =>
    cases b with
    | false => exact ⟨_, _, rfl, by decide⟩
    | true => exact ⟨_, _, rfl, by decide⟩
  | int i =>
    rw [print, toList_toString_int, ← List.append_nil (Nat.toDigits 10 _)]
    exact hnumber
  | decimal d =>
    rw [print, ofDecimal_eq]
    exact hnumber
  | text s => exact ⟨_, _, rfl, by decide⟩
  | list items =>
    cases items with
    | nil => exact ⟨_, _, rfl, by decide⟩
    | cons item items => exact ⟨_, _, by rw [print]; rfl, by decide⟩
  | table entries =>
    cases entries with
    | nil => exact ⟨_, _, rfl, by decide⟩
    | cons entry entries => exact ⟨_, _, by rw [print]; rfl, by decide⟩

theorem skipBlanks_print (depth : Nat) (v : Value) (rest : List Char) :
    skipBlanks (print depth v ++ rest) = print depth v ++ rest := by
  obtain ⟨c, more, hprint, hc⟩ := exists_print_eq_cons depth v
  rw [hprint, List.cons_append, skipBlanks_cons]
  simp only [List.mem_cons, List.not_mem_nil, or_false, not_or] at hc ⊢
  exact ⟨hc.1, hc.2.1, hc.2.2.1, hc.2.2.2.1⟩

theorem skipBlanks_quoted (s : String) (rest : List Char) :
    skipBlanks (quoted s ++ rest) = quoted s ++ rest :=
  skipBlanks_cons (by decide) _

theorem print_append_ne (depth : Nat) (v : Value) (rest more : List Char) :
    print depth v ++ rest ≠ ']' :: more := by
  obtain ⟨c, cs, hprint, hc⟩ := exists_print_eq_cons depth v
  rw [hprint]
  intro h
  obtain rfl : c = ']' := (List.cons.inj h).1
  simp at hc

theorem exists_fuel (h : (print depth v).length ≤ fuel) : ∃ less, fuel = less + 1 := by
  obtain ⟨c, more, hprint, -⟩ := exists_print_eq_cons depth v
  rw [hprint, List.length_cons] at h
  exact ⟨fuel - 1, by omega⟩

theorem ends_lineBreak (depth : Nat) (rest : List Char) : Ends (lineBreak depth ++ rest) := by
  intro c hc
  exact .inr (Option.some.inj hc).symm

theorem ends_printItems (depth : Nat) (items : List Value) (h : Ends rest) :
    Ends (printItems depth items ++ rest) := by
  cases items with
  | nil => simpa [printItems] using h
  | cons item items =>
    rw [printItems]
    exact fun c hc => .inl (Option.some.inj hc).symm

theorem ends_printEntries (depth : Nat) (entries : List (String × Value)) (h : Ends rest) :
    Ends (printEntries depth entries ++ rest) := by
  cases entries with
  | nil => simpa [printEntries] using h
  | cons entry entries =>
    rw [printEntries]
    exact fun c hc => .inl (Option.some.inj hc).symm

/-! ## Reading -/

/-- What starts like a number `readValue` reads as one. -/
theorem readValue_number {b : Bool} (fuel : Nat)
    (h : skipBlanks cs = sign b ++ (Nat.toDigits 10 n ++ rest)) :
    readValue (fuel + 1) cs = readNumber (skipBlanks cs) := by
  have hne : ∀ c more, c ≠ '-' → c.isDigit = false → skipBlanks cs ≠ c :: more :=
    fun c more hsign hdigit => h ▸ number_ne hsign hdigit more
  -- numbers are what is read if nothing else is
  rw [readValue]
  split
  case h_7 => rfl
  all_goals
    next heq => exact absurd heq (hne _ _ (by decide) (by decide))

/-- Whether a value is read from what `print` gives for it, at any depth. -/
def ReadsBack (v : Value) : Prop :=
  ∀ {depth fuel : Nat} {cs rest : List Char}, skipBlanks cs = print depth v ++ rest →
    Ends rest → (print depth v).length ≤ fuel → readValue fuel cs = some (v, rest)

/-- The items of a list are read up to the closing bracket, if each of them `ReadsBack`. -/
theorem readItems_print {items : List Value} (hitems : ∀ v ∈ items, ReadsBack v)
    (read : List Value) {outer : Nat} (hfirst : readValue fuel cs
      = some (v, printItems depth items ++ (lineBreak outer ++ ']' :: rest)))
    (hfuel : (printItems depth items).length ≤ fuel) :
    readItems (fuel + 1) read cs = some (read.reverse ++ v :: items, rest) := by
  -- on the items behind the first: each is, behind its comma, the first of those that are left
  induction items generalizing fuel cs v read with
  | nil =>
    rw [printItems, List.nil_append] at hfirst
    rw [readItems, hfirst]
    simp (disch := decide) only [skipBlanks_lineBreak, skipBlanks_cons, List.reverse_cons]
  | cons next items ih =>
    obtain ⟨hnext, hitems⟩ := List.forall_mem_cons.1 hitems
    simp only [printItems, List.cons_append, List.append_assoc, List.length_cons,
      List.length_append] at hfirst hfuel
    obtain ⟨fuel, rfl⟩ := Nat.exists_eq_succ_of_ne_zero (Nat.ne_of_gt (Nat.zero_lt_of_lt hfuel))
    have hread : readValue fuel (lineBreak depth ++ (print depth next ++ (printItems depth items
        ++ (lineBreak outer ++ ']' :: rest)))) = some (next, _) :=
      hnext (by rw [skipBlanks_lineBreak, skipBlanks_print])
        (ends_printItems depth items (ends_lineBreak outer (']' :: rest))) (by omega)
    rw [readItems, hfirst]
    simp (disch := decide) only [skipBlanks_cons]
    rw [ih hitems _ hread (by omega), List.reverse_cons, List.append_assoc]
    rfl

/-- The entries of a table are read up to the closing brace, each by its key, a colon and its value,
    if each value `ReadsBack`. -/
theorem readEntries_print {entries : List (String × Value)}
    (hentries : ∀ e ∈ entries, ReadsBack e.2) (read : List (String × Value)) {key : String}
    {outer : Nat} {after : List Char}
    (hkey : skipBlanks cs = quoted key ++ ':' :: after)
    (hvalue : readValue fuel after
      = some (v, printEntries depth entries ++ (lineBreak outer ++ '\x7d' :: rest)))
    (hfuel : (printEntries depth entries).length ≤ fuel) :
    readEntries (fuel + 1) read cs = some (read.reverse ++ (key, v) :: entries, rest) := by
  induction entries generalizing fuel cs key v read after with
  | nil =>
    obtain ⟨more, hcons, htext⟩ := readText_quoted key (':' :: after)
    rw [printEntries, List.nil_append] at hvalue
    rw [readEntries, hkey, hcons]
    simp (disch := decide) only [htext, hvalue, skipBlanks_lineBreak, skipBlanks_cons,
      List.reverse_cons]
  | cons next entries ih =>
    obtain ⟨nextKey, next⟩ := next
    obtain ⟨hnext : ReadsBack next, hentries⟩ := List.forall_mem_cons.1 hentries
    simp only [printEntries, List.cons_append, List.nil_append, List.append_assoc,
      List.length_cons, List.length_append] at hvalue hfuel
    obtain ⟨fuel, rfl⟩ := Nat.exists_eq_succ_of_ne_zero (Nat.ne_of_gt (Nat.zero_lt_of_lt hfuel))
    have hread : readValue fuel (' ' :: (print depth next ++ (printEntries depth entries
        ++ (lineBreak outer ++ '\x7d' :: rest)))) = some (next, _) :=
      hnext (skipBlanks_print depth next _)
        (ends_printEntries depth entries (ends_lineBreak outer ('\x7d' :: rest))) (by omega)
    obtain ⟨more, hcons, htext⟩ := readText_quoted key (':' :: after)
    rw [readEntries, hkey, hcons]
    simp (disch := decide) only [htext, hvalue, skipBlanks_cons]
    rw [ih hentries _ (by rw [skipBlanks_lineBreak, skipBlanks_quoted]) hread (by omega),
      List.reverse_cons, List.append_assoc]
    rfl

theorem readsBack_list {items : List Value} (h : ∀ v ∈ items, ReadsBack v) :
    ReadsBack (.list items) := by
  intro depth fuel cs rest hcs hends hfuel
  obtain ⟨fuel, rfl⟩ := exists_fuel hfuel
  cases items with
  | nil =>
    rw [readValue, hcs]
    rfl
  | cons item items =>
    obtain ⟨hitem, hitems⟩ := List.forall_mem_cons.1 h
    simp only [print, List.cons_append, List.nil_append, List.append_assoc, List.length_cons,
      List.length_append] at hcs hfuel
    obtain ⟨fuel, rfl⟩ := Nat.exists_eq_succ_of_ne_zero (by omega : fuel ≠ 0)
    have hread : readValue fuel (print (depth + 1) item ++ (printItems (depth + 1) items
        ++ (lineBreak depth ++ ']' :: rest))) = some (item, _) :=
      hitem (skipBlanks_print (depth + 1) item _)
        (ends_printItems (depth + 1) items (ends_lineBreak depth (']' :: rest))) (by omega)
    have hitems := readItems_print hitems [] hread (by omega)
    rw [readValue, hcs]
    simp only [skipBlanks_lineBreak, skipBlanks_print]
    -- the reader looks for the bracket of an empty list first
    split
    · next heq => exact absurd heq (print_append_ne (depth + 1) item _ _)
    · rw [hitems]
      rfl

theorem readsBack_table {entries : List (String × Value)}
    (hkeys : (entries.map (·.1)).Nodup) (h : ∀ e ∈ entries, ReadsBack e.2) :
    ReadsBack (.table entries) := by
  intro depth fuel cs rest hcs hends hfuel
  obtain ⟨fuel, rfl⟩ := exists_fuel hfuel
  cases entries with
  | nil =>
    rw [readValue, hcs]
    rfl
  | cons entry entries =>
    obtain ⟨key, value⟩ := entry
    obtain ⟨hvalue : ReadsBack value, hentries⟩ := List.forall_mem_cons.1 h
    simp only [print, List.cons_append, List.nil_append, List.append_assoc, List.length_cons,
      List.length_append] at hcs hfuel
    obtain ⟨fuel, rfl⟩ := Nat.exists_eq_succ_of_ne_zero (by omega : fuel ≠ 0)
    have hread : readValue fuel (' ' :: (print (depth + 1) value
        ++ (printEntries (depth + 1) entries ++ (lineBreak depth ++ '\x7d' :: rest))))
        = some (value, _) :=
      hvalue (skipBlanks_print (depth + 1) value _)
        (ends_printEntries (depth + 1) entries (ends_lineBreak depth ('\x7d' :: rest))) (by omega)
    have hentries := readEntries_print hentries [] (skipBlanks_quoted key _) hread
      (by omega)
    rw [readValue, hcs]
    simp only [skipBlanks_lineBreak, skipBlanks_quoted]
    split
    · next heq => exact absurd heq (by simp [quoted])
    · rw [hentries, Option.map_some, List.reverse_nil, List.nil_append,
        Table.ofEntries_of_nodup hkeys]

/-- A value with `KeysDiffer` is read from all that is printed for it. -/
theorem readsBack (h : v.KeysDiffer) : ReadsBack v := by
  induction h with
  | null =>
    intro depth fuel cs rest hcs _ hfuel
    obtain ⟨fuel, rfl⟩ := exists_fuel hfuel
    rw [readValue, hcs]
    rfl
  | bool b =>
    intro depth fuel cs rest hcs _ hfuel
    obtain ⟨fuel, rfl⟩ := exists_fuel hfuel
    rw [readValue, hcs]
    cases b with
    | false => rfl
    | true => rfl
  | int i =>
    intro depth fuel cs rest hcs hends hfuel
    obtain ⟨fuel, rfl⟩ := exists_fuel hfuel
    rw [print] at hcs
    have hnumber := hcs
    rw [toList_toString_int, List.append_assoc] at hnumber
    rw [readValue_number fuel hnumber, hcs, readNumber_int i hends]
  | decimal d =>
    intro depth fuel cs rest hcs hends hfuel
    obtain ⟨fuel, rfl⟩ := exists_fuel hfuel
    rw [print] at hcs
    have hnumber := hcs
    rw [ofDecimal_eq, List.append_assoc, List.append_assoc] at hnumber
    rw [readValue_number fuel hnumber, hcs, readNumber_decimal d hends]
  | text s =>
    intro depth fuel cs rest hcs _ hfuel
    obtain ⟨fuel, rfl⟩ := exists_fuel hfuel
    obtain ⟨more, hcons, hread⟩ := readText_quoted s rest
    rw [print, hcons] at hcs
    rw [readValue, hcs]
    simp only [hread, Option.map_some]
  | list items _ ih => exact readsBack_list ih
  | table entries hkeys _ ih => exact readsBack_table hkeys ih

/-! ## Documents -/

/-- The `document` of a value with `KeysDiffer` is read as that value, with blanks `after` it or
    without. -/
theorem parse?_document_append (h : v.KeysDiffer) {after : String} (hends : Ends after.toList)
    (hblank : skipBlanks after.toList = []) : parse? (document v ++ after) = some v := by
  have hlist : (document v ++ after).toList = print 0 v ++ after.toList := by
    rw [document, String.toList_append, String.toList_ofList]
  have hread : readValue ((document v ++ after).length + 1) (document v ++ after).toList
      = some (v, after.toList) := by
    refine readsBack h (by rw [hlist, skipBlanks_print]) hends ?_
    rw [← String.length_toList, hlist, List.length_append]
    omega
  rw [parse?, hread]
  simp only [hblank, List.isEmpty_nil, if_true]

theorem parse?_document (h : v.KeysDiffer) : parse? (document v) = some v := by
  have hparse : parse? (document v ++ "") = some v :=
    parse?_document_append h (fun _ hc => by cases hc) rfl
  rwa [String.append_empty] at hparse

theorem parse?_document_newline (h : v.KeysDiffer) : parse? (document v ++ "\n") = some v :=
  parse?_document_append h (fun _ hc => .inr (Option.some.inj hc).symm) rfl

/-- Values with `KeysDiffer` have the same `document` just when they are the same. -/
theorem document_inj {w : Value} (hv : v.KeysDiffer) (hw : w.KeysDiffer) :
    document v = document w ↔ v = w := by
  constructor
  · intro h
    have hparse := congrArg parse? h
    rw [parse?_document hv, parse?_document hw] at hparse
    exact Option.some.inj hparse
  · exact fun h => congrArg document h

theorem isAscii_lineBreak (depth : Nat) : IsAscii (lineBreak depth) := by
  refine isAscii_cons.2 ⟨by decide, fun c hc => ?_⟩
  rw [(List.mem_replicate.1 hc).2]
  decide

mutual

theorem isAscii_print (depth : Nat) : ∀ v, IsAscii (print depth v)
  | .null => by simp [print]
  | .bool b => by cases b <;> simp [print]
  | .int i => by
    rw [print]
    exact isAscii_int i
  | .decimal d => by
    rw [print, ofDecimal_eq]
    exact isAscii_number (isAscii_cons.2 ⟨by decide, isAscii_int d.exponent⟩)
  | .text s => by
    rw [print]
    exact isAscii_quoted s
  | .list [] => by simp [print]
  | .list (item :: items) => by
    simp [print, isAscii_lineBreak, isAscii_print (depth + 1) item,
      isAscii_printItems (depth + 1) items]
  | .table [] => by simp [print]
  | .table ((key, value) :: entries) => by
    simp [print, isAscii_lineBreak, isAscii_quoted, isAscii_print (depth + 1) value,
      isAscii_printEntries (depth + 1) entries]

theorem isAscii_printItems (depth : Nat) : ∀ items, IsAscii (printItems depth items)
  | [] => by simp [printItems]
  | item :: items => by
    simp [printItems, isAscii_lineBreak, isAscii_print depth item, isAscii_printItems depth items]

theorem isAscii_printEntries (depth : Nat) : ∀ entries, IsAscii (printEntries depth entries)
  | [] => by simp [printEntries]
  | (key, value) :: entries => by
    simp [printEntries, isAscii_lineBreak, isAscii_quoted, isAscii_print depth value,
      isAscii_printEntries depth entries]

end

theorem isAscii_document (v : Value) : IsAscii (document v).toList := by
  rw [document, String.toList_ofList]
  exact isAscii_print 0 v

end Json
end ArrowLint
