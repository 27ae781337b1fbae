/-
  ArrowLint.Proofs.Settings.Effective

  What the options of a settings table come to. Several keys may be for one option, in either way
  of writing it, and the last of them counts: its value is the effective one
  (`Settings.effective?`). A table is refused just when an effective value is not null and is none
  that the option can have, and else every option has its effective value, or keeps its default
  (`Settings.effective_values_decide`). So it makes no difference which way of writing is chosen
  (`Settings.ofTable_respelled`), nor, where no option is named twice, in which order the keys come
  (`Settings.NamesOnce.ofTable_of_perm`).
-/

import Mathlib.Data.List.Forall2
import ArrowLint.Proofs.Settings.Override
import ArrowLint.Settings

namespace ArrowLint

/-- Whether `key` is for the option `name`, in either way of writing it. -/
def OptionName.isKey (name : OptionName) (key : String) : Bool :=
  key == name.camelSpelling || key == name.spelling

theorem OptionName.isKey_iff {name : OptionName} {key : String} :
    name.isKey key = true ↔ ofKey? key = some name := by
  rw [ofKey?_eq_some_iff, isKey, Bool.or_eq_true, beq_iff_eq, beq_iff_eq, @eq_comm _ key,
    @eq_comm _ key]

theorem OptionName.isKey_eq_false_iff {name : OptionName} {key : String} :
    name.isKey key = false ↔ ofKey? key ≠ some name := by
  rw [Bool.eq_false_iff, ne_eq, isKey_iff]

namespace Settings

variable {t t' : Table} {name : OptionName} {value : Value} {settings : Settings} {e : ConfigError}

/-! ## Effective values -/

/-- The effective value of the option `name`: that of the last key for it, in either way of writing
    it. -/
def effective? (t : Table) (name : OptionName) : Option Value :=
  t.last? fun entry => name.isKey entry.1

/-- The value that a table sets an option to: the `effective?` one, unless it is null. -/
def configured? (t : Table) (name : OptionName) : Option Value :=
  (effective? t name).filter (!·.isNull)

/-- The last entry of `overridesOf t` under the name of an option has its `effective?` value. -/
theorem last?_overridesOf (t : Table) (name : OptionName) :
    (Options.overridesOf t).last? (·.1 == name.spelling) = effective? t name := by
  rw [Options.overridesOf, Table.last?_ofEntries]
  -- by induction on the table, whose first entry counts where it is for the option and no later is
  induction t with
  | nil => rfl
  | cons entry t ih =>
    rw [effective?, Table.last?_cons, ← effective?, ← ih]
    cases hkey : OptionName.ofKey? entry.1 with
    | none =>
      have hno : name.isKey entry.1 = false := OptionName.isKey_eq_false_iff.2 (by simp [hkey])
      rw [List.filterMap_cons_none (by rw [hkey]; rfl), hno]
      exact (Option.or_none).symm
    | some other =>
      rw [List.filterMap_cons_some (by rw [hkey]; rfl), Table.last?_cons]
      by_cases same : other = name
      · have hyes : name.isKey entry.1 = true := OptionName.isKey_iff.2 (by rw [hkey, same])
        simp [hyes, same]
      · have hno : name.isKey entry.1 = false :=
          OptionName.isKey_eq_false_iff.2 (by simpa [hkey] using same)
        have hother : other.spelling ≠ name.spelling := fun h =>
          same (OptionName.eq_of_spelling_eq h)
        simp [hno, hother]

theorem nodup_keys_overridesOf (t : Table) : ((Options.overridesOf t).map (·.1)).Nodup :=
  Table.nodup_keys_ofEntries _

/-- The value that `overridesOf t` give for an option is the one that it is `configured?` to. -/
theorem given?_overridesOf (t : Table) (name : OptionName) :
    Options.given? (Options.overridesOf t) name = configured? t name := by
  rw [configured?, ← last?_overridesOf]
  exact Table.last?_and (nodup_keys_overridesOf t) name.spelling fun value => !value.isNull

/-- The entries of `overridesOf t` are the `effective?` values, under the names of the options. -/
theorem mem_overridesOf {entry : String × Value} : entry ∈ Options.overridesOf t ↔
    ∃ name : OptionName, name.spelling = entry.1 ∧ effective? t name = some entry.2 := by
  constructor
  · intro hmem
    have hhas : (Options.overridesOf t).has entry.1 = true :=
      List.any_eq_true.2 ⟨entry, hmem, beq_self_eq_true _⟩
    rw [Options.overridesOf, Table.has_ofEntries] at hhas
    obtain ⟨given, hgiven, hkey⟩ := List.any_eq_true.1 hhas
    obtain ⟨source, -, hentry⟩ := List.mem_filterMap.1 hgiven
    obtain ⟨name, -, rfl⟩ := Option.map_eq_some_iff.1 hentry
    have hname : name.spelling = entry.1 := eq_of_beq hkey
    refine ⟨name, hname, ?_⟩
    have hone := Table.length_filter_key_le_one (nodup_keys_overridesOf t) name.spelling
    rw [← last?_overridesOf, Table.last?_eq_some_iff hone]
    exact ⟨entry, hmem, beq_iff_eq.2 hname.symm, rfl⟩
  · rintro ⟨name, hname, heffective⟩
    rw [← last?_overridesOf] at heffective
    obtain ⟨found, hmem, hkey, hvalue⟩ := Table.exists_of_last?_eq_some heffective
    have hfound : found = entry := Prod.ext ((eq_of_beq hkey).trans hname) hvalue
    exact hfound ▸ hmem

/-! ## Good and bad tables -/

/-- Whether a table gives the option `name` a bad value: an `effective?` one that is not null, and
    that the option does not admit. -/
def IsBad (t : Table) (name : OptionName) (value : Value) : Prop :=
  effective? t name = some value ∧ value ≠ .null ∧ ¬name.Admits value

/-- An entry of `overridesOf t` is refused just when it is a value that `IsBad`. -/
theorem exists_refuses_iff : (∃ entry ∈ Options.overridesOf t, Options.Refuses entry e) ↔
    ∃ name value, IsBad t name value ∧ e = name.refusal value := by
  constructor
  · rintro ⟨entry, hmem, hrefuses⟩
    obtain ⟨name, hname, heffective⟩ := mem_overridesOf.1 hmem
    cases hrefuses with
    | @badValue other value isNull admits =>
      obtain rfl : name = other := OptionName.eq_of_spelling_eq hname
      exact ⟨name, value, ⟨heffective, isNull, admits⟩, rfl⟩
    | unknownName isNull unknown => exact absurd hname (unknown name)
  · rintro ⟨name, value, ⟨heffective, isNull, admits⟩, rfl⟩
    exact ⟨(name.spelling, value), mem_overridesOf.2 ⟨name, rfl, heffective⟩,
      .badValue isNull admits⟩

/-- Each option has the value that it is `configured?` to, or its default. -/
theorem valueOf_of_ofSettings {o : Options} (h : Options.ofSettings t = .ok o) (name : OptionName) :
    o.valueOf name = (configured? t name).getD (({} : Options).valueOf name) := by
  rw [← given?_overridesOf]
  exact Options.valueOf_of_withOverrides (Options.has_overridesOf_reservedName t) h name

/-- A table is refused with the `refusal` of a value that `IsBad`. -/
theorem isBad_of_ofSettings_eq_error (h : Options.ofSettings t = .error e) :
    ∃ name value, IsBad t name value ∧ e = name.refusal value :=
  exists_refuses_iff.1
    (Options.exists_refuses_of_withOverrides (Options.has_overridesOf_reservedName t) h)

/-- A table is refused just when it has a value that `IsBad`. -/
theorem exists_ofSettings_eq_error_iff :
    (∃ e, Options.ofSettings t = .error e) ↔ ∃ name value, IsBad t name value := by
  constructor
  · rintro ⟨e, he⟩
    obtain ⟨name, value, hbad, -⟩ := isBad_of_ofSettings_eq_error he
    exact ⟨name, value, hbad⟩
  · rintro ⟨name, value, hbad⟩
    obtain ⟨entry, hmem, hrefuses⟩ := exists_refuses_iff.2 ⟨name, value, hbad, rfl⟩
    exact (Options.exists_withOverrides_eq_error_iff (Options.has_overridesOf_reservedName t)).2
      ⟨entry, hmem, Options.exists_refuses_iff.1 ⟨_, hrefuses⟩⟩

theorem ofTable_eq_ok_iff : ofTable t = .ok settings ↔
    Options.ofSettings t = .ok settings.options ∧ settings.exclude = excludeOf t ∧
      settings.extensions = extensionsOf t := by
  rw [ofTable, map_eq_ok_iff]
  constructor
  · rintro ⟨o, ho, rfl⟩
    exact ⟨ho, rfl, rfl⟩
  · rintro ⟨ho, hexclude, hextensions⟩
    exact ⟨settings.options, ho, by rw [← hexclude, ← hextensions]⟩

theorem ofTable_eq_error_iff : ofTable t = .error e ↔ Options.ofSettings t = .error e := by
  rw [ofTable]
  cases Options.ofSettings t with
  | error e' => simp [Except.map]
  | ok o => simp [Except.map]

/-! ## The other way of writing -/

/-- Whether two entries say the same: they are the same, or have one `value` under two keys for one
    option. -/
inductive IsRespelling : String × Value → String × Value → Prop where
  | same (entry : String × Value) : IsRespelling entry entry
  | other (name : OptionName) {key key' : String} (value : Value) (isKey : name.isKey key = true)
      (isKey' : name.isKey key' = true) : IsRespelling (key, value) (key', value)

theorem IsRespelling.ofKey?_eq {entry entry' : String × Value} (h : IsRespelling entry entry') :
    OptionName.ofKey? entry'.1 = OptionName.ofKey? entry.1 := by
  cases h with
  | same => rfl
  | other name value isKey isKey' =>
    exact (OptionName.isKey_iff.1 isKey').trans (OptionName.isKey_iff.1 isKey).symm

theorem IsRespelling.value_eq {entry entry' : String × Value} (h : IsRespelling entry entry') :
    entry'.2 = entry.2 := by
  cases h with
  | same => rfl
  | other => rfl

/-- An entry whose key is for no option has no `IsRespelling` but itself. -/
theorem IsRespelling.eq_of_ofKey? {entry entry' : String × Value} (h : IsRespelling entry entry')
    (hkey : OptionName.ofKey? entry.1 = none) : entry' = entry := by
  cases h with
  | same => rfl
  | other name value isKey =>
    rw [OptionName.isKey_iff.1 isKey] at hkey
    cases hkey

theorem overridesOf_respelled (h : List.Forall₂ IsRespelling t t') :
    Options.overridesOf t' = Options.overridesOf t := by
  rw [Options.overridesOf, Options.overridesOf]
  congr 1
  induction h with
  | nil => rfl
  | cons hentry _ ih =>
    rw [List.filterMap_cons, List.filterMap_cons, ih, hentry.ofKey?_eq, hentry.value_eq]

/-- A key that is for no option has its value also where options are respelled. -/
theorem get?_respelled {key : String} (h : List.Forall₂ IsRespelling t t')
    (hkey : OptionName.ofKey? key = none) : t'.get? key = t.get? key := by
  induction h with
  | nil => rfl
  | @cons entry entry' rest rest' hentry _ ih =>
    obtain ⟨k, value⟩ := entry
    obtain ⟨k', value'⟩ := entry'
    rw [Table.get?, Table.get?, List.lookup_cons, List.lookup_cons, ← Table.get?, ← Table.get?, ih]
    cases hk : OptionName.ofKey? k with
    | none =>
      obtain ⟨rfl, rfl⟩ := Prod.mk.inj (hentry.eq_of_ofKey? hk)
      rfl
    | some name =>
      -- neither entry is under the key
      have hother : ∀ other, OptionName.ofKey? other = some name → (key == other) = false := by
        intro other hother
        rw [beq_eq_false_iff_ne]
        rintro rfl
        rw [hkey] at hother
        cases hother
      rw [hother k hk, hother k' (hentry.ofKey?_eq.trans hk)]

theorem warnings_respelled (h : List.Forall₂ IsRespelling t t') : warnings t' = warnings t := by
  have hfilter : t'.filter (!isKnown ·.1) = t.filter (!isKnown ·.1) := by
    induction h with
    | nil => rfl
    | @cons entry entry' rest rest' hentry _ ih =>
      cases hk : OptionName.ofKey? entry.1 with
      | none => rw [hentry.eq_of_ofKey? hk, List.filter_cons, List.filter_cons, ih]
      | some name =>
        have hknown : ¬(!isKnown entry.1) = true := by simp [isKnown, hk]
        have hknown' : ¬(!isKnown entry'.1) = true := by simp [isKnown, hentry.ofKey?_eq, hk]
        rw [List.filter_cons, if_neg hknown', List.filter_cons, if_neg hknown, ih]
  rw [warnings, warnings, hfilter]

/-- The settings are the same in whichever way the keys for options are written. -/
theorem ofTable_respelled (h : List.Forall₂ IsRespelling t t') : ofTable t' = ofTable t := by
  have hexclude : excludeOf t' = excludeOf t := by
    rw [excludeOf, excludeOf, get?_respelled h (by decide)]
  have hextensions : extensionsOf t' = extensionsOf t := by
    rw [extensionsOf, extensionsOf, get?_respelled h (by decide)]
  rw [ofTable, ofTable, Options.ofSettings, Options.ofSettings, overridesOf_respelled h, hexclude,
    hextensions]

/-! ## Another order -/

/-- Whether a table has each key once, and names no option twice. -/
structure NamesOnce (t : Table) : Prop where
  keys : (t.map (·.1)).Nodup
  options : (t.filterMap (OptionName.ofKey? ·.1)).Nodup

/-- In a table that `NamesOnce` at most one key is for an option. -/
theorem NamesOnce.length_filter_isKey_le_one (h : NamesOnce t) (name : OptionName) :
    (t.filter fun entry => name.isKey entry.1).length ≤ 1 := by
  refine Table.length_filter_le_one ((List.pairwise_filterMap.1 h.options).imp ?_)
  intro first second hne hfirst
  rw [OptionName.isKey_eq_false_iff]
  intro hsecond
  exact hne name (OptionName.isKey_iff.1 hfirst) name hsecond rfl

theorem NamesOnce.of_perm (h : NamesOnce t) (hperm : t.Perm t') : NamesOnce t' :=
  ⟨(hperm.map _).nodup h.keys, (hperm.filterMap _).nodup h.options⟩

theorem NamesOnce.effective?_of_perm (h : NamesOnce t) (hperm : t.Perm t') (name : OptionName) :
    effective? t' name = effective? t name :=
  Table.last?_of_perm (h.length_filter_isKey_le_one name) hperm

theorem NamesOnce.get?_of_perm (h : NamesOnce t) (hperm : t.Perm t') (key : String) :
    t'.get? key = t.get? key := by
  rw [Table.get?_eq_last? h.keys, Table.get?_eq_last? (h.of_perm hperm).keys]
  exact Table.last?_of_perm (Table.length_filter_key_le_one h.keys key) hperm

/-- In a table that `NamesOnce` the order of the keys plays no part in whether a value `IsBad`. -/
theorem NamesOnce.isBad_of_perm (h : NamesOnce t) (hperm : t.Perm t') :
    IsBad t' name value ↔ IsBad t name value := by
  rw [IsBad, IsBad, h.effective?_of_perm hperm]

/-- In a table that `NamesOnce` the order of the keys plays no part in the options that come out. -/
theorem NamesOnce.ofSettings_of_perm (h : NamesOnce t) (hperm : t.Perm t') {o : Options}
    (ho : Options.ofSettings t = .ok o) : Options.ofSettings t' = .ok o := by
  cases ho' : Options.ofSettings t' with
  | error e =>
    obtain ⟨name, value, hbad⟩ := exists_ofSettings_eq_error_iff.1 ⟨e, ho'⟩
    obtain ⟨e', he'⟩ :=
      exists_ofSettings_eq_error_iff.2 ⟨name, value, (h.isBad_of_perm hperm).1 hbad⟩
    rw [ho] at he'
    cases he'
  | ok o' =>
    congr 1
    refine Options.ext_valueOf fun name => ?_
    rw [valueOf_of_ofSettings ho, valueOf_of_ofSettings ho', configured?, configured?,
      h.effective?_of_perm hperm]

/-- In a table that `NamesOnce` the order of the keys plays no part in the settings. -/
theorem NamesOnce.ofTable_of_perm (h : NamesOnce t) (hperm : t.Perm t')
    (hok : ofTable t = .ok settings) : ofTable t' = .ok settings := by
  obtain ⟨ho, hexclude, hextensions⟩ := ofTable_eq_ok_iff.1 hok
  refine ofTable_eq_ok_iff.2 ⟨h.ofSettings_of_perm hperm ho, ?_, ?_⟩
  · rw [hexclude, excludeOf, excludeOf, h.get?_of_perm hperm]
  · rw [hextensions, extensionsOf, extensionsOf, h.get?_of_perm hperm]

/-! ## What a table comes to -/

/-- A table is refused just when it gives an option a value that `IsBad`, and then with the
    `refusal` of one that it gives; else every option has the value that it is `configured?` to, or
    keeps its default. The same comes of it when keys are respelled (`IsRespelling`), and where the
    table `NamesOnce`, when they are in another order. -/
theorem effective_values_decide (t : Table) :
    ((∃ e, ofTable t = .error e) ↔ ∃ name value, IsBad t name value) ∧
    (∀ e, ofTable t = .error e → ∃ name value, IsBad t name value ∧ e = name.refusal value) ∧
    (∀ settings, ofTable t = .ok settings → ∀ name,
      settings.options.valueOf name = (configured? t name).getD (({} : Options).valueOf name)) ∧
    (∀ t', List.Forall₂ IsRespelling t t' → ofTable t' = ofTable t ∧ warnings t' = warnings t) ∧
    (NamesOnce t → ∀ t', t.Perm t' →
      (∀ settings, ofTable t' = .ok settings ↔ ofTable t = .ok settings) ∧
      (warnings t').Perm (warnings t)) := by
  simp only [ofTable_eq_error_iff]
  refine ⟨exists_ofSettings_eq_error_iff, fun e => isBad_of_ofSettings_eq_error, ?values,
    ?respelled, ?order⟩
  case values =>
    intro settings hok
    exact valueOf_of_ofSettings (ofTable_eq_ok_iff.1 hok).1
  case respelled =>
    intro t' h
    exact ⟨ofTable_respelled h, warnings_respelled h⟩
  case order =>
    intro h t' hperm
    refine ⟨fun settings => ⟨?_, h.ofTable_of_perm hperm⟩, ((hperm.filter _).map _).symm⟩
    exact (h.of_perm hperm).ofTable_of_perm hperm.symm

/-- A table with keys in both ways of writing, one of them null, and one that is not `isKnown`. -/
def mixedTable : Table :=
  [("returnStyle", .text "implicit"), ("disallow_prototype", .bool true),
    ("singleReturnOnly", .null), ("colour", .int 3), ("exclude", .list [.text "gen"])]

/-- The `mixedTable` with its keys in the other way of writing. -/
def mixedTableRespelled : Table :=
  [("return_style", .text "implicit"), ("disallowPrototype", .bool true),
    ("single_return_only", .null), ("colour", .int 3), ("exclude", .list [.text "gen"])]

/-- The options of `mixedTable`, which are those of it respelled or reversed; and a bad value that
    comes last for its option, with the refusal of its table. -/
theorem effective_values_decide_mixed :
    (∃ settings, ofTable mixedTable = .ok settings ∧
      (∀ name, settings.options.valueOf name
        = (configured? mixedTable name).getD (({} : Options).valueOf name)) ∧
      ofTable mixedTableRespelled = .ok settings ∧
      ofTable mixedTable.reverse = .ok settings) ∧
    IsBad [("singleReturnOnly", .bool true), ("single_return_only", .int 1)] .singleReturnOnly
      (.int 1) ∧
    ∃ e, ofTable [("singleReturnOnly", .bool true), ("single_return_only", .int 1)] = .error e := by
  obtain ⟨-, -, hvalues, hrespelled, horder⟩ := effective_values_decide mixedTable
  have hforall : List.Forall₂ IsRespelling mixedTable mixedTableRespelled :=
    .cons (.other .returnStyle _ (by decide) (by decide)) <|
    .cons (.other .disallowPrototype _ (by decide) (by decide)) <|
    .cons (.other .singleReturnOnly _ (by decide) (by decide)) <|
    .cons (.same _) <| .cons (.same _) .nil
  have honce : NamesOnce mixedTable := ⟨by decide, by decide⟩
  have hok : ofTable mixedTable = .ok
      { options := { disallowPrototype := true, returnStyle := .implicit }
        exclude := ["gen"], extensions := defaultExtensions } := rfl
  have hbad : IsBad [("singleReturnOnly", .bool true), ("single_return_only", .int 1)]
      .singleReturnOnly (.int 1) := by
    refine ⟨rfl, nofun, ?_⟩
    rintro ⟨on, h⟩
    cases h
  refine ⟨⟨_, hok, hvalues _ hok, (hrespelled _ hforall).1.trans hok,
    ((horder honce _ (List.reverse_perm _).symm).1 _).2 hok⟩, hbad, ?_⟩
  exact (effective_values_decide _).1.2 ⟨_, _, hbad⟩

end Settings

end ArrowLint
