/-
  ArrowLint.Proofs.Settings.Override

  What overriding options comes to. An option has a value (`Options.valueOf`), and the values of the
  four make up the options (`Options.ext_valueOf`). One override sets one of them
  (`Options.exists_override`) or is refused (`Options.override_eq_error`). A table of overrides
  leaves every option with the last value for it that is not null (`Options.exists_withOverrides`),
  or is refused for its first bad entry (`Options.withOverrides_eq_error_iff`). So overrides in two
  layers come to the same as the merged ones in one (`Options.withOverrides_overriddenBy`).
-/

import ArrowLint.Options
import ArrowLint.Proofs.Fallible
import ArrowLint.Proofs.Settings.Table

namespace ArrowLint

/-! ## Names and values of options -/

theorem ReturnStyle.ofSpelling?_eq_some_iff {s : String} {style : ReturnStyle} :
    ofSpelling? s = some style ↔ style.spelling = s := by
  constructor
  · intro h
    simpa using List.find?_some h
  · rintro rfl
    cases style <;> decide

theorem ReturnStyle.ofValue_eq_ok_iff {value : Value} {style : ReturnStyle} :
    ofValue value = .ok style ↔ value = .text style.spelling := by
  unfold ofValue
  split
  · next s =>
    rw [Value.text.injEq, @eq_comm _ s, ← ofSpelling?_eq_some_iff]
    cases ofSpelling? s <;> simp
  · next hno => exact iff_of_false nofun fun h => hno _ h

/-- A value that is not the `spelling` of a style is refused. -/
theorem ReturnStyle.ofValue_eq_error {value : Value}
    (h : ∀ style : ReturnStyle, value ≠ .text style.spelling) :
    ofValue value = .error (.notReturnStyle value) := by
  cases value with
  | text s =>
    have hnone : ofSpelling? s = none := Option.eq_none_iff_forall_ne_some.2 fun style hstyle =>
      h style (congrArg Value.text (ofSpelling?_eq_some_iff.1 hstyle).symm)
    rw [ofValue, hnone]
  | null | bool | int | decimal | list | table => rfl

namespace OptionName

theorem ofSpelling?_eq_some_iff {s : String} {name : OptionName} :
    ofSpelling? s = some name ↔ name.spelling = s := by
  constructor
  · intro h
    simpa using List.find?_some h
  · rintro rfl
    cases name <;> decide

theorem ofKey?_eq_some_iff {key : String} {name : OptionName} :
    ofKey? key = some name ↔ name.camelSpelling = key ∨ name.spelling = key := by
  constructor
  · intro h
    simpa using List.find?_some h
  · rintro (rfl | rfl)
    · cases name <;> decide
    · cases name <;> decide

theorem eq_of_spelling_eq {name other : OptionName} (h : other.spelling = name.spelling) :
    other = name :=
  Option.some.inj ((ofSpelling?_eq_some_iff.2 h).symm.trans (ofSpelling?_eq_some_iff.2 rfl))

/-- The values that an option can have: the spellings of the styles for `returnStyle`, truth values
    for the others. -/
def Admits : OptionName → Value → Prop
  | .returnStyle, value => ∃ style : ReturnStyle, value = .text style.spelling
  | _, value => ∃ on : Bool, value = .bool on

/-- The `ConfigError` for a value that an option does not admit. -/
def refusal : OptionName → Value → ConfigError
  | .returnStyle, value => .notReturnStyle value
  | name, value => .notFlag name value

/-- No option `Admits` null. -/
theorem Admits.isNull_eq_false {name : OptionName} {value : Value} (h : name.Admits value) :
    value.isNull = false := by
  cases name with
  | returnStyle =>
    obtain ⟨style, rfl⟩ := h
    rfl
  | singleReturnOnly | disallowPrototype | classPropertiesAllowed =>
    obtain ⟨on, rfl⟩ := h
    rfl

end OptionName

theorem Value.isNull_iff {value : Value} : value.isNull = true ↔ value = .null := by
  cases value <;> simp [isNull]

namespace Options

variable {o o' : Options} {name : OptionName} {key : String} {value : Value} {e : ConfigError}
  {entry : String × Value} {t a b : Table}

/-- The value that an option has in `o`. -/
def valueOf (o : Options) : OptionName → Value
  | .singleReturnOnly => .bool o.singleReturnOnly
  | .disallowPrototype => .bool o.disallowPrototype
  | .returnStyle => .text o.returnStyle.spelling
  | .classPropertiesAllowed => .bool o.classPropertiesAllowed

/-- Options with the same `valueOf` every name are the same. -/
theorem ext_valueOf (h : ∀ name, o.valueOf name = o'.valueOf name) : o = o' := by
  have hsingle := h .singleReturnOnly
  have hprototype := h .disallowPrototype
  have hstyle := h .returnStyle
  have hclass := h .classPropertiesAllowed
  simp only [valueOf, Value.bool.injEq, Value.text.injEq] at hsingle hprototype hstyle hclass
  have hstyle' : o.returnStyle = o'.returnStyle :=
    Option.some.inj ((ReturnStyle.ofSpelling?_eq_some_iff.2 hstyle).symm.trans
      (ReturnStyle.ofSpelling?_eq_some_iff.2 rfl))
  cases o
  cases o'
  simp_all

/-! ## One override -/

/-- An option is set to any value that it `Admits`, and no other option changes. -/
theorem exists_set (h : name.Admits value) (o : Options) :
    ∃ o', o.set name value = .ok o' ∧
      ∀ other, o'.valueOf other = if other = name then value else o.valueOf other := by
  cases name with
  | returnStyle =>
    obtain ⟨style, rfl⟩ := h
    refine ⟨{ o with returnStyle := style }, ?_, fun other => by cases other <;> rfl⟩
    rw [set, ReturnStyle.ofValue_eq_ok_iff.2 rfl]
    rfl
  | singleReturnOnly | disallowPrototype | classPropertiesAllowed =>
    obtain ⟨on, rfl⟩ := h
    exact ⟨_, rfl, fun other => by cases other <;> rfl⟩

/-- A value that an option does not admit is refused with its `refusal`. -/
theorem set_eq_error (h : ¬name.Admits value) (o : Options) :
    o.set name value = .error (name.refusal value) := by
  cases name with
  | returnStyle =>
    have herror : ReturnStyle.ofValue value = .error (.notReturnStyle value) := by
      refine ReturnStyle.ofValue_eq_error fun style hstyle => h ⟨style, hstyle⟩
    rw [set, herror]
    rfl
  | singleReturnOnly | disallowPrototype | classPropertiesAllowed =>
    cases value with
    | bool on => exact absurd ⟨on, rfl⟩ h
    | null | int | decimal | text | list | table => rfl

/-- Whether `entry` can be set over options: it is null, or its value is one that the option of its
    name `Admits`. -/
def IsSettable (entry : String × Value) : Prop :=
  entry.2 = .null ∨ ∃ name : OptionName, name.spelling = entry.1 ∧ name.Admits entry.2

/-- How an entry is refused that is not `IsSettable`. -/
inductive Refuses : String × Value → ConfigError → Prop
  | badValue {name : OptionName} {value : Value} (isNull : value ≠ .null)
      (admits : ¬name.Admits value) : Refuses (name.spelling, value) (name.refusal value)
  | unknownName {key : String} {value : Value} (isNull : value ≠ .null)
      (unknown : ∀ name : OptionName, name.spelling ≠ key) :
      Refuses (key, value) (.unknownOption key)

/-- An entry is refused just when it is not null and is no value for the option of its name. -/
theorem exists_refuses_iff : (∃ e, Refuses entry e) ↔
    entry.2 ≠ .null ∧ ∀ name : OptionName, name.spelling = entry.1 → ¬name.Admits entry.2 := by
  constructor
  · rintro ⟨e, h⟩
    cases h with
    | badValue isNull admits =>
      refine ⟨isNull, fun other hother => ?_⟩
      rwa [OptionName.eq_of_spelling_eq hother]
    | unknownName isNull unknown => exact ⟨isNull, fun name hname => absurd hname (unknown name)⟩
  · obtain ⟨key, value⟩ := entry
    rintro ⟨isNull, hno⟩
    by_cases hname : ∃ name : OptionName, name.spelling = key
    · obtain ⟨name, rfl⟩ := hname
      exact ⟨_, .badValue isNull (hno name rfl)⟩
    · exact ⟨_, .unknownName isNull fun name heq => hname ⟨name, heq⟩⟩

theorem isSettable_iff : IsSettable entry ↔ ¬∃ e, Refuses entry e := by
  rw [exists_refuses_iff, IsSettable]
  grind

/-- One `override` leaves an option with the value it gives for that, unless it is null. -/
theorem exists_override (h : IsSettable (key, value)) (o : Options) :
    ∃ o', o.override key value = .ok o' ∧
      ∀ name, o'.valueOf name
        = if key = name.spelling ∧ value.isNull = false then value else o.valueOf name := by
  rcases h with hnull | ⟨name, hname, hadmits⟩
  · obtain rfl : value = .null := hnull
    exact ⟨o, rfl, fun name => (if_neg fun h => nomatch h.2).symm⟩
  · obtain rfl : name.spelling = key := hname
    have hnull := hadmits.isNull_eq_false
    obtain ⟨o', hset, hvalue⟩ := exists_set hadmits o
    refine ⟨o', ?_, fun other => ?_⟩
    · rw [override, if_neg (by rw [hnull]; exact Bool.false_ne_true),
        OptionName.ofSpelling?_eq_some_iff.2 rfl]
      exact hset
    · rw [hvalue]
      by_cases same : other = name
      · rw [if_pos same, if_pos ⟨by rw [same], hnull⟩]
      · rw [if_neg same, if_neg fun h => same (OptionName.eq_of_spelling_eq h.1).symm]

theorem override_eq_error (h : Refuses entry e) (o : Options) :
    o.override entry.1 entry.2 = .error e := by
  cases h with
  | badValue isNull admits =>
    rw [override, if_neg fun h => isNull (Value.isNull_iff.1 h),
      OptionName.ofSpelling?_eq_some_iff.2 rfl]
    exact set_eq_error admits o
  | @unknownName key value isNull unknown =>
    have hno : OptionName.ofSpelling? key = none :=
      Option.eq_none_iff_forall_ne_some.2 fun name h =>
        unknown name (OptionName.ofSpelling?_eq_some_iff.1 h)
    rw [override, if_neg fun h => isNull (Value.isNull_iff.1 h), hno]

/-! ## A table of overrides -/

/-- The value that a table of overrides gives for the option `name`: the last one under its spelling
    that is not null. -/
def given? (t : Table) (name : OptionName) : Option Value :=
  t.last? fun entry => entry.1 == name.spelling && !entry.2.isNull

/-- Where each key is there once, its value is given unless it is null. -/
theorem given?_eq_some_iff (hkeys : (t.map (·.1)).Nodup) :
    given? t name = some value ↔ (name.spelling, value) ∈ t ∧ value ≠ .null := by
  rw [given?, Table.last?_and hkeys name.spelling fun value => !value.isNull,
    Option.filter_eq_some_iff,
    Table.last?_eq_some_iff (Table.length_filter_key_le_one hkeys name.spelling), Bool.not_eq_true',
    Bool.eq_false_iff, ne_eq, Value.isNull_iff]
  refine and_congr_left fun _ => ⟨?_, fun hmem => ⟨_, hmem, beq_self_eq_true _, rfl⟩⟩
  rintro ⟨entry, hmem, hkey, rfl⟩
  rwa [← eq_of_beq hkey]

/-- Overrides that are all `IsSettable` leave every option with the value `given?` for it. -/
theorem exists_foldlM_override (h : ∀ entry ∈ t, IsSettable entry) (o : Options) :
    ∃ o', t.foldlM (fun o entry => o.override entry.1 entry.2) o = .ok o' ∧
      ∀ name, o'.valueOf name = (given? t name).getD (o.valueOf name) := by
  -- by induction on the overrides, over any options that there are already
  induction t generalizing o with
  | nil => exact ⟨o, rfl, fun _ => rfl⟩
  | cons entry t ih =>
    obtain ⟨middle, hmiddle, hfirst⟩ := exists_override (h entry List.mem_cons_self) o
    obtain ⟨o', hrest, hvalue⟩ := ih (fun e he => h e (List.mem_cons_of_mem entry he)) middle
    refine ⟨o', bind_eq_ok_iff.2 ⟨middle, hmiddle, hrest⟩, fun name => ?_⟩
    rw [hvalue, hfirst, given?, given?, Table.last?_cons, Option.getD_or]
    by_cases hcounts : entry.1 = name.spelling ∧ entry.2.isNull = false
    · rw [if_pos hcounts, if_pos (by simp [hcounts])]
      rfl
    · rw [if_neg hcounts, if_neg (by simpa using hcounts)]
      rfl

/-- Overrides that are not all settable are refused for the first bad one. -/
theorem foldlM_override_eq_error {before after : Table} (h : ∀ entry ∈ before, IsSettable entry)
    (hbad : Refuses entry e) (o : Options) :
    (before ++ entry :: after).foldlM (fun o entry => o.override entry.1 entry.2) o = .error e := by
  obtain ⟨middle, hmiddle, -⟩ := exists_foldlM_override h o
  rw [List.foldlM_append, hmiddle]
  show (entry :: after).foldlM (fun o entry => o.override entry.1 entry.2) middle = .error e
  rw [List.foldlM_cons, override_eq_error hbad]
  rfl

/-- Entries are all `IsSettable`, or there is a first bad one. -/
theorem forall_isSettable_or (t : Table) :
    (∀ entry ∈ t, IsSettable entry) ∨
      ∃ before entry after e, t = before ++ entry :: after ∧
        (∀ entry ∈ before, IsSettable entry) ∧ Refuses entry e := by
  induction t with
  | nil => exact .inl nofun
  | cons entry t ih =>
    by_cases hsettable : IsSettable entry
    · rcases ih with hall | ⟨before, bad, after, e, rfl, hbefore, hbad⟩
      · exact .inl (List.forall_mem_cons.2 ⟨hsettable, hall⟩)
      · exact .inr ⟨entry :: before, bad, after, e, rfl,
          List.forall_mem_cons.2 ⟨hsettable, hbefore⟩, hbad⟩
    · obtain ⟨e, hbad⟩ := not_not.1 (mt isSettable_iff.2 hsettable)
      exact .inr ⟨[], entry, t, e, rfl, nofun, hbad⟩

theorem withOverrides_eq (hself : t.has reservedName = false) (o : Options) :
    o.withOverrides t = t.foldlM (fun o entry => o.override entry.1 entry.2) o :=
  if_neg (by rw [hself]; exact Bool.false_ne_true)

theorem exists_withOverrides (hself : t.has reservedName = false)
    (h : ∀ entry ∈ t, IsSettable entry) (o : Options) :
    ∃ o', o.withOverrides t = .ok o' ∧
      ∀ name, o'.valueOf name = (given? t name).getD (o.valueOf name) := by
  rw [withOverrides_eq hself]
  exact exists_foldlM_override h o

/-- A table is refused by `withOverrides` for the first entry that is not settable, and only for
    that. -/
theorem withOverrides_eq_error_iff (hself : t.has reservedName = false) :
    o.withOverrides t = .error e ↔
      ∃ before entry after, t = before ++ entry :: after ∧
        (∀ entry ∈ before, IsSettable entry) ∧ Refuses entry e := by
  rw [withOverrides_eq hself]
  constructor
  · intro herror
    rcases forall_isSettable_or t with hall | ⟨before, entry, after, e', heq, hbefore, hbad⟩
    · obtain ⟨o', hok, -⟩ := exists_foldlM_override hall o
      rw [hok] at herror
      cases herror
    · rw [heq, foldlM_override_eq_error hbefore hbad] at herror
      obtain rfl := Except.error.inj herror
      exact ⟨before, entry, after, heq, hbefore, hbad⟩
  · rintro ⟨before, entry, after, rfl, hbefore, hbad⟩
    exact foldlM_override_eq_error hbefore hbad o

/-- A table that `withOverrides` refuses has an entry that is refused with the same error. -/
theorem exists_refuses_of_withOverrides (hself : t.has reservedName = false)
    (h : o.withOverrides t = .error e) : ∃ entry ∈ t, Refuses entry e := by
  obtain ⟨before, entry, after, rfl, -, hbad⟩ := (withOverrides_eq_error_iff hself).1 h
  exact ⟨entry, by simp, hbad⟩

/-- After overrides that are not refused each option has the value `given?` for it. -/
theorem valueOf_of_withOverrides (hself : t.has reservedName = false)
    (h : o.withOverrides t = .ok o') (name : OptionName) :
    o'.valueOf name = (given? t name).getD (o.valueOf name) := by
  rcases forall_isSettable_or t with hall | hbad
  · obtain ⟨last, hlast, hvalue⟩ := exists_withOverrides hself hall o
    rw [h] at hlast
    obtain rfl := Except.ok.inj hlast
    exact hvalue name
  · obtain ⟨before, entry, after, e, hbad⟩ := hbad
    rw [(withOverrides_eq_error_iff hself).2 ⟨before, entry, after, hbad⟩] at h
    cases h

/-- A table is refused by `withOverrides` just when an entry is not null and is no value for the
    option of its name. -/
theorem exists_withOverrides_eq_error_iff (hself : t.has reservedName = false) :
    (∃ e, o.withOverrides t = .error e) ↔ ∃ entry ∈ t, entry.2 ≠ .null ∧
      ∀ name : OptionName, name.spelling = entry.1 → ¬name.Admits entry.2 := by
  simp only [← exists_refuses_iff]
  constructor
  · rintro ⟨e, he⟩
    obtain ⟨entry, hmem, hbad⟩ := exists_refuses_of_withOverrides hself he
    exact ⟨entry, hmem, e, hbad⟩
  · rintro ⟨entry, hmem, e, hbad⟩
    -- this one is bad, so there is a first bad one
    rcases forall_isSettable_or t with hall | ⟨before, first, after, e', hfirst⟩
    · exact absurd ⟨e, hbad⟩ (isSettable_iff.1 (hall entry hmem))
    · exact ⟨e', (withOverrides_eq_error_iff hself).2 ⟨before, first, after, hfirst⟩⟩

end Options

/-! ## Overrides in layers -/

/-- The table `a` overridden by those entries of `b` that are not null. -/
def Table.overriddenBy (a b : Table) : Table :=
  (b.filter (!·.2.isNull)).foldl (fun t entry => t.put entry.1 entry.2) a

namespace Options

variable {a b : Table} {name : OptionName}

/-- An entry of `a.overriddenBy b` comes from one of the two. -/
theorem mem_overriddenBy {entry : String × Value} (h : entry ∈ a.overriddenBy b) :
    entry ∈ a ∨ entry ∈ b := by
  have foldl_mem : ∀ (entries : List (String × Value)) (t : Table),
      entry ∈ entries.foldl (fun t entry => t.put entry.1 entry.2) t →
        entry ∈ t ∨ entry ∈ entries := by
    intro entries
    induction entries with
    | nil => exact fun t h => .inl h
    | cons first entries ih =>
      intro t h
      rcases ih _ h with hput | hrest
      · rcases Table.mem_put hput with hold | rfl
        · exact .inl hold
        · exact .inr List.mem_cons_self
      · exact .inr (List.mem_cons_of_mem first hrest)
  rcases foldl_mem _ a h with ha | hb
  · exact .inl ha
  · exact .inr (List.mem_filter.1 hb).1

theorem has_overriddenBy_eq_false {key : String} (ha : a.has key = false) (hb : b.has key = false) :
    (a.overriddenBy b).has key = false :=
  List.any_eq_false.2 fun entry hmem => (mem_overriddenBy hmem).elim
    (List.any_eq_false.1 ha entry) (List.any_eq_false.1 hb entry)

/-- For each option the later table decides, if it gives a value at all. -/
theorem given?_overriddenBy :
    given? (a.overriddenBy b) name = (given? b name).or (given? a name) := by
  -- by induction on the later table; what is merged so far takes the place of the earlier one
  rw [Table.overriddenBy]
  induction b generalizing a with
  | nil => rfl
  | cons entry b ih =>
    rw [given?, given?, Table.last?_cons, Option.or_assoc, ← given?, ← given?]
    cases hnull : entry.2.isNull with
    | true =>
      rw [List.filter_cons_of_neg (by simp [hnull]), ih]
      simp
    | false =>
      have hput : given? (a.put entry.1 entry.2) name
          = if entry.1 = name.spelling then some entry.2 else given? a name :=
        Table.last?_put (fun value => !value.isNull) (by simp [hnull]) a entry.1 name.spelling
      rw [List.filter_cons_of_pos (by simp [hnull]), List.foldl_cons, ih, hput]
      by_cases same : entry.1 = name.spelling
      · simp [same]
      · simp [same]

/-- Overriding with `a` and then with `b` comes to the same as overriding once with `a.overriddenBy
    b`. -/
theorem withOverrides_overriddenBy (haself : a.has reservedName = false)
    (hbself : b.has reservedName = false) (ha : ∀ entry ∈ a, IsSettable entry)
    (hb : ∀ entry ∈ b, IsSettable entry) (o : Options) :
    ∃ o', ((o.withOverrides a).bind fun o => o.withOverrides b) = .ok o' ∧
      o.withOverrides (a.overriddenBy b) = .ok o' := by
  obtain ⟨first, hfirst, hfirstValue⟩ := exists_withOverrides haself ha o
  obtain ⟨last, hlast, hlastValue⟩ := exists_withOverrides hbself hb first
  obtain ⟨once, honce, honceValue⟩ := exists_withOverrides
    (has_overriddenBy_eq_false haself hbself)
    (fun entry hmem => (mem_overriddenBy hmem).elim (ha entry) (hb entry)) o
  have hsame : last = once := by
    refine ext_valueOf fun name => ?_
    rw [hlastValue, hfirstValue, honceValue, given?_overriddenBy, Option.getD_or]
  refine ⟨last, ?_, hsame ▸ honce⟩
  rw [hfirst]
  exact hlast

end Options

end ArrowLint
