/-
  ArrowLint.Proofs.Settings.Table

  Which entry of a table counts where several could: the last one (`Table.last?`). Setting a key
  makes its value the last one for that key, whatever stood there before (`Table.last?_put`), so a
  table that is put together entry by entry has for each key the last value that came with it
  (`Table.last?_ofEntries`). Where at most one entry could count, their order does not matter
  (`Table.last?_of_perm`).
-/

import ArrowLint.Value.Basic
import Mathlib.Data.List.Nodup

namespace ArrowLint.Table

variable {t other : Table} {entry : String × Value} {entries : List (String × Value)}
  {key k : String} {value : Value} {p q : String × Value → Bool}

/-- The value of the last entry of `t` that meets the condition `p`. -/
def last? (t : Table) (p : String × Value → Bool) : Option Value :=
  (t.filter p).getLast?.map (·.2)

@[simp]
theorem last?_nil : last? [] p = none :=
  rfl

theorem last?_append : last? (t ++ other) p = (last? other p).or (last? t p) := by
  rw [last?, List.filter_append, List.getLast?_append, Option.map_or]
  rfl

theorem last?_singleton : last? [entry] p = if p entry then some entry.2 else none := by
  unfold last?
  cases h : p entry with
  | true => simp [h]
  | false => simp [h]

theorem last?_cons :
    last? (entry :: t) p = (last? t p).or (if p entry then some entry.2 else none) := by
  rw [← List.singleton_append, last?_append, last?_singleton]

/-- A value that `last?` finds is that of an entry which meets the condition. -/
theorem exists_of_last?_eq_some (h : last? t p = some value) :
    ∃ entry ∈ t, p entry = true ∧ entry.2 = value := by
  obtain ⟨entry, hlast, hvalue⟩ := Option.map_eq_some_iff.1 h
  obtain ⟨hmem, hp⟩ := List.mem_filter.1 (List.mem_of_getLast? hlast)
  exact ⟨entry, hmem, hp, hvalue⟩

theorem last?_eq_none_iff : last? t p = none ↔ ∀ entry ∈ t, p entry = false := by
  rw [last?, Option.map_eq_none_iff, List.getLast?_eq_none_iff, List.filter_eq_nil_iff]
  simp only [Bool.not_eq_true]

/-! ## Tables put together -/

/-- Changing the value of `key` in its place makes it the last one, where the condition asks for
    `key` and admits the value; for other keys `last?` stays the same. -/
theorem last?_map_replace (admits : Value → Bool) (hvalue : admits value = true) (t : Table) :
    last? (t.map fun entry => if entry.1 == key then (key, value) else entry)
        (fun entry => entry.1 == k && admits entry.2)
      = if key = k then (if has t key then some value else none)
        else last? t fun entry => entry.1 == k && admits entry.2 := by
  induction t with
  | nil => by_cases same : key = k <;> simp [same, has]
  | cons entry t ih =>
    rw [List.map_cons, last?_cons, last?_cons, ih]
    have hcons : has (entry :: t) key = (entry.1 == key || has t key) := rfl
    by_cases same : key = k
    · subst same
      rw [if_pos rfl, if_pos rfl, hcons]
      by_cases here : entry.1 = key
      · by_cases before : has t key = true <;> simp [here, hvalue, before]
      · simp [here]
    · rw [if_neg same, if_neg same]
      by_cases here : entry.1 = key
      · simp [here, same]
      · simp [here]

/-- Setting `key` with `put` makes its value the last one where the condition asks for `key` and
    admits the value, and changes nothing for other keys. -/
theorem last?_put (admits : Value → Bool) (hvalue : admits value = true) (t : Table)
    (key k : String) :
    last? (put t key value) (fun entry => entry.1 == k && admits entry.2)
      = if key = k then some value else last? t fun entry => entry.1 == k && admits entry.2 := by
  rw [put]
  split
  case isTrue hhas => rw [last?_map_replace admits hvalue, if_pos hhas]
  case isFalse =>
    rw [last?_append, last?_singleton]
    by_cases same : key = k
    · simp [same, hvalue]
    · simp [same]

/-- An entry of `put t key value` was in `t` before or is what has been set. -/
theorem mem_put (h : entry ∈ put t key value) : entry ∈ t ∨ entry = (key, value) := by
  unfold put at h
  split at h
  · obtain ⟨old, hold, rfl⟩ := List.mem_map.1 h
    by_cases same : (old.1 == key) = true
    · exact .inr (if_pos same)
    · rw [if_neg same]
      exact .inl hold
  · rcases List.mem_append.1 h with hold | hnew
    · exact .inl hold
    · exact .inr (List.mem_singleton.1 hnew)

theorem nodup_keys_put (h : (t.map (·.1)).Nodup) : ((put t key value).map (·.1)).Nodup := by
  unfold put
  split
  case isTrue =>
    have hkeys : ((t.map fun entry => if entry.1 == key then (key, value) else entry).map (·.1))
        = t.map (·.1) := by
      rw [List.map_map]
      refine List.map_congr_left fun entry _ => ?_
      by_cases same : entry.1 = key <;> simp [same]
    rwa [hkeys]
  case isFalse hhas =>
    rw [List.map_append, List.nodup_append]
    refine ⟨h, List.nodup_singleton key, ?_⟩
    rintro k hk other hother rfl
    obtain rfl : k = key := List.mem_singleton.1 hother
    obtain ⟨entry, hentry, rfl⟩ := List.mem_map.1 hk
    exact hhas (List.any_eq_true.2 ⟨entry, hentry, beq_self_eq_true _⟩)

/-- A table of `ofEntries` has each key once. -/
theorem nodup_keys_ofEntries (entries : List (String × Value)) :
    ((ofEntries entries).map (·.1)).Nodup := by
  have foldl_nodup : ∀ t : Table, (t.map (·.1)).Nodup →
      ((entries.foldl (fun t entry => put t entry.1 entry.2) t).map (·.1)).Nodup := by
    induction entries with
    | nil => exact fun t h => h
    | cons entry entries ih => exact fun t h => ih _ (nodup_keys_put h)
  exact foldl_nodup [] List.nodup_nil

/-- The value of a key in `ofEntries entries` is the last one among `entries`. -/
theorem last?_ofEntries (entries : List (String × Value)) (k : String) :
    last? (ofEntries entries) (·.1 == k) = last? entries (·.1 == k) := by
  have hput : ∀ (t : Table) (key : String) (value : Value),
      last? (put t key value) (·.1 == k) = if key = k then some value else last? t (·.1 == k) := by
    intro t key value
    simpa using last?_put (fun _ => true) rfl t key k
  -- by induction on the entries, over any table that there is already
  have foldl_last : ∀ t : Table,
      last? (entries.foldl (fun t entry => put t entry.1 entry.2) t) (·.1 == k)
        = (last? entries (·.1 == k)).or (last? t (·.1 == k)) := by
    induction entries with
    | nil => simp
    | cons entry entries ih =>
      intro t
      rw [List.foldl_cons, ih, hput, last?_cons, Option.or_assoc]
      by_cases same : entry.1 = k
      · simp [same]
      · simp [same]
  rw [ofEntries, foldl_last, last?_nil, Option.or_none]

/-! ## Where at most one entry could count -/

/-- Where no two entries meet the condition `p`, at most one does. -/
theorem length_filter_le_one
    (h : t.Pairwise fun first second => p first = true → p second = false) :
    (t.filter p).length ≤ 1 := by
  cases hfilter : t.filter p with
  | nil => exact Nat.zero_le 1
  | cons first rest =>
    cases rest with
    | nil => exact Nat.le_refl 1
    | cons second rest =>
      have hmeets : ∀ entry ∈ first :: second :: rest, p entry = true := by
        rw [← hfilter]
        exact fun entry hmem => (List.mem_filter.1 hmem).2
      have hpair := h.sublist (List.filter_sublist (p := p))
      rw [hfilter] at hpair
      have hclash := List.rel_of_pairwise_cons hpair List.mem_cons_self (hmeets first (by simp))
      rw [hmeets second (by simp)] at hclash
      cases hclash

/-- Where at most one entry meets the condition, `last?` is the value of one that does. -/
theorem last?_eq_some_iff (hone : (t.filter p).length ≤ 1) :
    last? t p = some value ↔ ∃ entry ∈ t, p entry = true ∧ entry.2 = value := by
  constructor
  · exact exists_of_last?_eq_some
  · rintro ⟨entry, hmem, hp, rfl⟩
    have hfilter : entry ∈ t.filter p := List.mem_filter.2 ⟨hmem, hp⟩
    obtain ⟨only, honly⟩ := List.length_eq_one_iff.1
      (Nat.le_antisymm hone (List.length_pos_of_mem hfilter))
    rw [honly, List.mem_singleton] at hfilter
    rw [last?, honly, hfilter]
    rfl

/-- Where at most one entry meets the condition, the order of the entries does not matter to
    `last?`. -/
theorem last?_of_perm (hone : (t.filter p).length ≤ 1) (h : t.Perm other) :
    last? other p = last? t p := by
  have hone' : (other.filter p).length ≤ 1 := (h.filter p).length_eq ▸ hone
  refine Option.ext fun value => ?_
  rw [last?_eq_some_iff hone, last?_eq_some_iff hone']
  simp only [h.mem_iff]

/-! ## Where each key is there once -/

/-- In a table that has each key once at most one entry is for `key`. -/
theorem length_filter_key_le_one (hkeys : (t.map (·.1)).Nodup) (key : String) :
    (t.filter (·.1 == key)).length ≤ 1 := by
  refine length_filter_le_one ((List.pairwise_map.1 hkeys).imp ?_)
  intro first second hne hfirst
  rw [beq_eq_false_iff_ne, ← eq_of_beq hfirst]
  exact hne.symm

/-- In a table that has each key once a condition on values is put to the one value of `key`. -/
theorem last?_and (hkeys : (t.map (·.1)).Nodup) (key : String) (admits : Value → Bool) :
    last? t (fun entry => entry.1 == key && admits entry.2)
      = (last? t (·.1 == key)).filter admits := by
  have hone := length_filter_key_le_one hkeys key
  have hboth : (t.filter fun entry => entry.1 == key && admits entry.2).length ≤ 1 :=
    Nat.le_trans (List.monotone_filter_right t fun entry h =>
      (Bool.and_eq_true_iff.1 h).1).length_le hone
  refine Option.ext fun value => ?_
  rw [last?_eq_some_iff hboth, Option.filter_eq_some_iff, last?_eq_some_iff hone]
  constructor
  · rintro ⟨entry, hmem, hp, rfl⟩
    obtain ⟨hkey, hadmits⟩ := Bool.and_eq_true_iff.1 hp
    exact ⟨⟨entry, hmem, hkey, rfl⟩, hadmits⟩
  · rintro ⟨⟨entry, hmem, hkey, rfl⟩, hadmits⟩
    exact ⟨entry, hmem, Bool.and_eq_true_iff.2 ⟨hkey, hadmits⟩, rfl⟩

/-- In a table that has each key once `get?` is the `last?` value of the key. -/
theorem get?_eq_last? (hkeys : (t.map (·.1)).Nodup) (key : String) :
    get? t key = last? t (·.1 == key) := by
  induction t with
  | nil => rfl
  | cons entry t ih =>
    obtain ⟨hnew, hrest⟩ := List.nodup_cons.1 hkeys
    rw [get?, List.lookup_cons, last?_cons, ← get?, ih hrest]
    by_cases same : entry.1 = key
    · have hnone : last? t (·.1 == key) = none := by
        rw [last?_eq_none_iff]
        intro later hlater
        rw [beq_eq_false_iff_ne, ← same]
        exact fun heq => hnew (List.mem_map.2 ⟨later, hlater, heq⟩)
      simp [same, hnone]
    · have hno : (key == entry.1) = false := beq_eq_false_iff_ne.2 (Ne.symm same)
      simp [same, hno]

end ArrowLint.Table
