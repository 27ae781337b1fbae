/-
  ArrowLint.Proofs.Registry.Lookup

  Which messages can be explained, and which are listed. Both read the same registry, but they
  pass over entries for different reasons: the listing leaves out every key that ends in
  `._default`, and a search for a symbol only the one key of the entry that speaks for the others.
  So what is listed can be explained, and beyond that what the listing hides
  (`CommandLine.rules_explain_listed`).

    * `Registry.answers_of_lookup?`, `Registry.exists_lookup?_of_answers`: an entry is found just
      where one answers to the id;
    * `Registry.exists_mem_rows_iff`: the listing has a line for each entry that it does not hide;
    * `Registry.exists_lookup?_iff`: what can be looked up is what is listed or hidden.
-/

import ArrowLint.Proofs.Registry.Texts

namespace ArrowLint

theorem Value.table?_eq_some_iff {v : Value} {entry : Table} :
    v.table? = some entry ↔ v = .table entry := by
  cases v with
  | table entries => simp [table?]
  | null => simp [table?]
  | bool b => simp [table?]
  | int i => simp [table?]
  | decimal d => simp [table?]
  | text s => simp [table?]
  | list items => simp [table?]

namespace Registry

variable {registry entry : Table} {key id : String} {rows : List RegistryRow}

/-! ## Keys -/

theorem startsWith_iff : Text.startsWith key keyLead = true ↔ ∃ id, key = keyLead ++ id := by
  rw [Text.startsWith, List.isPrefixOf_iff_prefix]
  constructor
  · rintro ⟨rest, h⟩
    exact ⟨String.ofList rest, String.toList_inj.1 (by rw [String.toList_append, h.symm]; simp)⟩
  · rintro ⟨id, rfl⟩
    exact ⟨id.toList, by rw [String.toList_append]⟩

theorem append_keyLead_inj {id' : String} : keyLead ++ id = keyLead ++ id' ↔ id = id' := by
  rw [← String.toList_inj, String.toList_append, String.toList_append,
    List.append_right_inj, String.toList_inj]

/-- Whether every entry of a registry is a table. -/
def AreTables (registry : Table) : Prop :=
  ∀ row ∈ registry, ∃ entry, row.2 = .table entry

/-- Whether the entry under `key` answers to `id`: by its key, or by its symbol unless its key is
    `defaultKey`. -/
def Answers (key : String) (entry : Table) (id : String) : Prop :=
  key = keyLead ++ id ∨
    Text.startsWith key keyLead = true ∧ key ≠ defaultKey ∧ hasSymbol entry id = true

theorem Answers.startsWith (h : Answers key entry id) : Text.startsWith key keyLead = true := by
  rcases h with rfl | ⟨h, -⟩
  · exact startsWith_iff.2 ⟨id, rfl⟩
  · exact h

/-! ## Looking up -/

theorem bySymbol?_eq_some_iff {row : String × Value} : bySymbol? id row = some entry ↔
    row.2 = .table entry ∧ Text.startsWith row.1 keyLead = true ∧ row.1 ≠ defaultKey ∧
      hasSymbol entry id = true := by
  obtain ⟨key, value⟩ := row
  unfold bySymbol?
  split
  · next h =>
    refine iff_of_false (by simp) fun ⟨_, hlead, hne, _⟩ => ?_
    simp [hlead, hne] at h
  · next h =>
    obtain ⟨hlead, hne⟩ : Text.startsWith key keyLead = true ∧ key ≠ defaultKey := by
      simpa using h
    rw [Option.filter_eq_some_iff, Value.table?_eq_some_iff]
    simp [hlead, hne]

theorem mem_of_get? {v : Value} (h : registry.get? key = some v) : (key, v) ∈ registry := by
  obtain ⟨before, after, rfl, -⟩ := List.lookup_eq_some_iff.1 h
  simp

theorem exists_get?_of_mem {v : Value} (h : (key, v) ∈ registry) :
    ∃ first, registry.get? key = some first := by
  rw [← Option.isSome_iff_exists, Table.get?, List.lookup_isSome_iff]
  exact ⟨_, h, beq_self_eq_true key⟩

/-- What `lookup?` finds for `id` answers to it. -/
theorem answers_of_lookup? (h : lookup? registry id = some entry) :
    ∃ key, (key, .table entry) ∈ registry ∧ Answers key entry id := by
  unfold lookup? at h
  cases hkey : (registry.get? (keyLead ++ id)).bind Value.table? with
  | some found =>
    rw [hkey] at h
    obtain rfl : found = entry := Option.some.inj h
    obtain ⟨v, hv, htable⟩ := Option.bind_eq_some_iff.1 hkey
    obtain rfl := Value.table?_eq_some_iff.1 htable
    exact ⟨_, mem_of_get? hv, .inl rfl⟩
  | none =>
    rw [hkey] at h
    obtain ⟨⟨key, value⟩, hmem, hsymbol⟩ := List.exists_of_findSome?_eq_some h
    obtain ⟨rfl, hanswers⟩ := bySymbol?_eq_some_iff.1 hsymbol
    exact ⟨key, hmem, .inr hanswers⟩

/-- In a registry of tables `lookup?` finds something for `id` if an entry `Answers` to it. -/
theorem exists_lookup?_of_answers (ht : AreTables registry)
    (hmem : (key, .table entry) ∈ registry) (h : Answers key entry id) :
    ∃ found, lookup? registry id = some found := by
  cases hkey : registry.get? (keyLead ++ id) with
  | some v =>
    obtain ⟨found, rfl⟩ := ht _ (mem_of_get? hkey)
    exact ⟨found, lookup?_of_get? hkey⟩
  | none =>
    rcases h with rfl | hsymbol
    · obtain ⟨first, hfirst⟩ := exists_get?_of_mem hmem
      rw [hkey] at hfirst
      cases hfirst
    · have hsome : (registry.findSome? (bySymbol? id)).isSome = true :=
        List.findSome?_isSome_iff.2 ⟨_, hmem, by
          rw [bySymbol?_eq_some_iff.2 ⟨rfl, hsymbol⟩]
          rfl⟩
      obtain ⟨found, hfound⟩ := Option.isSome_iff_exists.1 hsome
      exact ⟨found, by rw [lookup?, hkey]; exact hfound⟩

/-- In a registry of tables the `advice` for a message never fails. -/
theorem exists_advice (ht : AreTables registry) (id : String) :
    ∃ advice, Registry.advice registry id = .ok advice := by
  unfold advice
  split
  · exact ⟨_, rfl⟩
  · unfold defaultAdvice
    split
    · exact ⟨_, rfl⟩
    · next value hdefault =>
      obtain ⟨entry, rfl⟩ := ht _ (mem_of_get? hdefault)
      split
      · exact ⟨_, rfl⟩
      · exact ⟨_, rfl⟩

/-! ## Listing -/

/-- Whether a key that starts with `keyLead` is left out of the listing. -/
def IsHidden (key : String) : Prop :=
  Text.startsWith key keyLead = true ∧ Text.endsWith key "._default" = true

/-- The `row` for the entry under `keyLead ++ id`. -/
theorem row_append (id : String) (entry : Table) : row (keyLead ++ id) (.table entry) = .ok {
    id := id
    name := ((present? entry "display_name").map Value.display).getD id
    description := ((present? entry "short_description").map Value.display).getD "" } := by
  have hid : String.ofList ((keyLead ++ id).toList.drop keyLead.toList.length) = id := by
    rw [String.toList_append, List.drop_left, String.ofList_toList]
  rw [row, hid]

/-- A registry of tables has `rows`. -/
theorem exists_rows (ht : AreTables registry) : ∃ rows, Registry.rows registry = .ok rows := by
  refine exists_map_eq_ok _ (exists_mapM_eq_ok fun ⟨key, value⟩ hmem => ?_)
  obtain ⟨entry, rfl⟩ := ht _ (List.mem_filter.1 hmem).1
  exact ⟨_, rfl⟩

theorem isListed_iff : isListed key = true ↔
    Text.startsWith key keyLead = true ∧ ¬ IsHidden key := by
  unfold isListed IsHidden
  cases Text.startsWith key keyLead with
  | false => simp
  | true => simp

/-- The `rows` have a line for each entry of this linter's that is not `IsHidden`. -/
theorem exists_mem_rows_iff (ht : AreTables registry) (hrows : Registry.rows registry = .ok rows) :
    (∃ r ∈ rows, r.id = id) ↔
      ∃ entry, (keyLead ++ id, .table entry) ∈ registry ∧ ¬ IsHidden (keyLead ++ id) := by
  obtain ⟨lines, hlines, rfl⟩ := map_eq_ok_iff.1 hrows
  constructor
  · rintro ⟨r, hr, rfl⟩
    obtain ⟨⟨key, value⟩, hmem, hrow⟩ :=
      exists_of_mem_of_mapM_eq_ok hlines (List.mem_mergeSort.1 hr)
    obtain ⟨hentry, hlisted⟩ := List.mem_filter.1 hmem
    obtain ⟨entry, rfl⟩ := ht _ hentry
    obtain ⟨hlead, hhidden⟩ := isListed_iff.1 hlisted
    obtain ⟨id, rfl⟩ := startsWith_iff.1 hlead
    obtain rfl := Except.ok.inj ((row_append id entry).symm.trans hrow)
    exact ⟨entry, hentry, hhidden⟩
  · rintro ⟨entry, hmem, hhidden⟩
    have hlisted : isListed (keyLead ++ id) = true :=
      isListed_iff.2 ⟨startsWith_iff.2 ⟨id, rfl⟩, hhidden⟩
    have hline := List.mem_map_of_mem (f := fun row => Registry.row row.1 row.2)
      (List.mem_filter.2 ⟨hmem, hlisted⟩ :
        (keyLead ++ id, Value.table entry) ∈ registry.filter (isListed ·.1))
    rw [mapM_eq_ok_iff.1 hlines, row_append] at hline
    obtain ⟨r, hr, heq⟩ := List.mem_map.1 hline
    exact ⟨r, List.mem_mergeSort.2 hr, congrArg RegistryRow.id (Except.ok.inj heq)⟩

/-- Whether `rows` have a line for `id`: its own, or that of an entry that has `id` for its
    symbol. -/
def Lists (registry : Table) (rows : List RegistryRow) (id : String) : Prop :=
  ∃ r ∈ rows, r.id = id ∨
    ∃ entry, (keyLead ++ r.id, .table entry) ∈ registry ∧ hasSymbol entry id = true

/-- Whether an entry that `IsHidden` answers to `id`. -/
def Hides (registry : Table) (id : String) : Prop :=
  ∃ key entry, (key, .table entry) ∈ registry ∧ IsHidden key ∧ Answers key entry id

/-- What `lookup?` finds is what the listing `Lists`, and what it `Hides`. -/
theorem exists_lookup?_iff (ht : AreTables registry) (hrows : Registry.rows registry = .ok rows)
    (id : String) :
    (∃ entry, lookup? registry id = some entry) ↔ Lists registry rows id ∨ Hides registry id := by
  constructor
  · rintro ⟨entry, hentry⟩
    obtain ⟨key, hmem, hanswers⟩ := answers_of_lookup? hentry
    by_cases hhidden : IsHidden key
    · exact .inr ⟨key, entry, hmem, hhidden, hanswers⟩
    · obtain ⟨own, rfl⟩ := startsWith_iff.1 hanswers.startsWith
      obtain ⟨r, hr, rfl⟩ := (exists_mem_rows_iff ht hrows).2 ⟨entry, hmem, hhidden⟩
      refine .inl ⟨r, hr, ?_⟩
      rcases hanswers with hkey | ⟨-, -, hsymbol⟩
      · exact .inl (append_keyLead_inj.1 hkey)
      · exact .inr ⟨entry, hmem, hsymbol⟩
  · rintro (⟨r, hr, hid⟩ | ⟨key, entry, hmem, -, hanswers⟩)
    · obtain ⟨listed, hlisted, hhidden⟩ := (exists_mem_rows_iff ht hrows).1 ⟨r, hr, rfl⟩
      rcases hid with rfl | ⟨entry, hmem, hsymbol⟩
      · exact exists_lookup?_of_answers ht hlisted (.inl rfl)
      · have hlead : Text.startsWith (keyLead ++ r.id) keyLead = true := startsWith_iff.2 ⟨_, rfl⟩
        refine exists_lookup?_of_answers ht hmem (.inr ⟨hlead, ?_, hsymbol⟩)
        -- the entry that speaks for the others is hidden
        intro hdefault
        exact hhidden ⟨hlead, hdefault ▸ by decide⟩
    · exact exists_lookup?_of_answers ht hmem hanswers

end Registry

/-! ## The packaged registry -/

theorem Registry.areTables_packaged : AreTables packaged := by
  have htables : ∀ row ∈ packaged, row.2.table?.isSome = true := by decide
  intro row hrow
  obtain ⟨entry, hentry⟩ := Option.isSome_iff_exists.1 (htables row hrow)
  exact ⟨entry, Value.table?_eq_some_iff.1 hentry⟩

/-! ## Explaining -/

namespace CommandLine

variable {console : Console} {registry : Table} {id : String}

theorem explainRule_of_isSome {advice : String}
    (h : ∃ entry, Registry.lookup? registry id = some entry)
    (hadvice : Registry.advice registry id = .ok advice) :
    explainRule console registry id = .exit {
      code := 0, stderr := ""
      stdout := console.say (Registry.displayName registry id) ++ console.say advice } := by
  obtain ⟨entry, hentry⟩ := h
  rw [explainRule, hentry, hadvice]
  rfl

/-- The notice for a message `id` that is not known. -/
def unknownNotice (id : String) : Notice :=
  .error ("Unknown message '" ++ id ++ "'.")

theorem explainRule_of_isNone (h : ¬ ∃ entry, Registry.lookup? registry id = some entry) :
    explainRule console registry id = .exit {
      code := 2, stdout := ""
      stderr := console.tell (unknownNotice id)
        ++ early [announcer.record (unknownNotice id)] } := by
  have hnone : Registry.lookup? registry id = none := by
    simpa only [not_exists, ← Option.eq_none_iff_forall_ne_some] using h
  rw [explainRule, hnone]
  rfl

/-- In a registry of tables, `rules` explains a message just when the listing `Lists` it or `Hides`
    an entry that answers to it, and any other one is refused. -/
theorem rules_explain_listed (console : Console) (ht : Registry.AreTables registry) (id : String)
    (hid : id ≠ "") :
    ∃ rows, Registry.rows registry = .ok rows ∧
      rules console registry none
        = .exit { code := 0, stdout := console.draw (RegistryRow.boxed rows), stderr := "" } ∧
      ((∃ entry, Registry.lookup? registry id = some entry) ↔
        Registry.Lists registry rows id ∨ Registry.Hides registry id) ∧
      (Registry.Lists registry rows id ∨ Registry.Hides registry id →
        ∃ advice, Registry.advice registry id = .ok advice ∧
          rules console registry (some id) = .exit {
            code := 0, stderr := ""
            stdout := console.say (Registry.displayName registry id) ++ console.say advice }) ∧
      (¬ (Registry.Lists registry rows id ∨ Registry.Hides registry id) →
        rules console registry (some id) = .exit {
          code := 2, stdout := ""
          stderr := console.tell (unknownNotice id)
            ++ early [announcer.record (unknownNotice id)] }) := by
  obtain ⟨rows, hrows⟩ := Registry.exists_rows ht
  have hfound := Registry.exists_lookup?_iff ht hrows id
  have hrules : rules console registry (some id) = explainRule console registry id :=
    if_neg (by simpa using hid)
  refine ⟨rows, hrows, ?_, hfound, fun h => ?_, fun h => ?_⟩
  · rw [rules, listRules, hrows]
    rfl
  · obtain ⟨advice, hadvice⟩ := Registry.exists_advice ht id
    exact ⟨advice, hadvice, hrules.trans (explainRule_of_isSome (hfound.2 h) hadvice)⟩
  · rw [hrules]
    exact explainRule_of_isNone (mt hfound.1 h)

/-- The messages of the `packaged` registry are listed and explained. -/
theorem rules_explain_listed_packaged :
    Registry.AreTables Registry.packaged ∧
    ∃ rows, Registry.rows Registry.packaged = .ok rows ∧
      Registry.Lists Registry.packaged rows "use-explicit" ∧
      rules {} Registry.packaged (some "use-explicit") = .exit {
        code := 0, stderr := ""
        stdout := "Use Explicit Return\n"
          ++ "Replace `(params) => expr` with `(params) => \x7b return expr \x7d`.\n" } := by
  have ht := Registry.areTables_packaged
  obtain ⟨rows, hrows, -, -, hexplained, -⟩ :=
    rules_explain_listed {} ht "use-explicit" (by decide)
  have hentry : ∃ entry,
      (Registry.keyLead ++ "UseExplicit", .table entry) ∈ Registry.packaged ∧
        Registry.hasSymbol entry "use-explicit" = true :=
    ⟨_, List.mem_of_getElem? (i := 3) rfl, rfl⟩
  obtain ⟨entry, hmem, hsymbol⟩ := hentry
  obtain ⟨r, hr, hid⟩ := (Registry.exists_mem_rows_iff ht hrows).2
    ⟨entry, hmem, fun hhidden => absurd hhidden.2 (by decide)⟩
  have hlists : Registry.Lists Registry.packaged rows "use-explicit" :=
    ⟨r, hr, .inr ⟨entry, hid ▸ hmem, hsymbol⟩⟩
  obtain ⟨advice, hadvice, hrules⟩ := hexplained (.inl hlists)
  have hown : Registry.advice Registry.packaged "use-explicit"
      = .ok "Replace `(params) => expr` with `(params) => \x7b return expr \x7d`." := rfl
  obtain rfl := Except.ok.inj (hown.symm.trans hadvice)
  exact ⟨ht, rows, hrows, hlists, hrules⟩

/-- The entry under `defaultKey` is explained like a message, though it is not listed. -/
theorem default_entry_explained :
    ¬ ∀ (registry : Table) (id : String) (rows : List RegistryRow),
      Registry.AreTables registry → id ≠ "" → Registry.rows registry = .ok rows →
      ((∃ entry, Registry.lookup? registry id = some entry) ↔
        Registry.Lists registry rows id) := by
  intro h
  have ht : Registry.AreTables Registry.packaged := Registry.areTables_packaged
  obtain ⟨rows, hrows⟩ := Registry.exists_rows ht
  obtain ⟨r, hr, hid⟩ := (h _ "_default" rows ht (by decide) hrows).1 ⟨_, rfl⟩
  rcases hid with hid | ⟨entry, hmem, hsymbol⟩
  · obtain ⟨entry, -, hhidden⟩ := (Registry.exists_mem_rows_iff ht hrows).1 ⟨r, hr, hid⟩
    exact hhidden ⟨by decide, by decide⟩
  · -- none of the entries has this symbol
    have hnone : ∀ row ∈ Registry.packaged,
        row.2.table?.any (Registry.hasSymbol · "_default") = false := by decide +kernel
    have hsome := hnone _ hmem
    rw [Value.table?_eq_some_iff.2 rfl, Option.any_some, hsymbol] at hsome
    cases hsome

end CommandLine

end ArrowLint
