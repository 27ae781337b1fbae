/-
  ArrowLint.Proofs.CommandLine.Flags

  The options that a command runs with, in three layers (`CommandLine.options_in_layers`). The last
  switch for an option gives it its value (`CommandLine.flag?`), also where that is false; an option
  without a switch has the value of the settings (`CommandLine.valueOf_of_prepare`), and without one
  there its default. Only a return style can be given a bad value
  (`CommandLine.admits_or_of_flag?`), and then the call ends before any source is looked at
  (`CommandLine.Finds.call_of_prepare_eq_none`).
-/

import ArrowLint.Proofs.CommandLine.Exit
import ArrowLint.Proofs.Settings.Effective

namespace ArrowLint.CommandLine

variable {env : Environment} {settings : Settings} {s : FileStore} {wishes : Wishes}
  {workspace : Workspace} {given : List Switch} {name : OptionName} {value : Value}
  {loaded : LoadedSettings} {args paths : List String}

/-! ## Switches for options -/

/-- The value that a `Switch` gives the option `name`, if it is one for it. -/
def Switch.valueFor? : OptionName → Switch → Option Value
  | .singleReturnOnly, .singleReturnOnly on => some (.bool on)
  | .disallowPrototype, .disallowPrototype on => some (.bool on)
  | .classPropertiesAllowed, .classPropertiesAllowed on => some (.bool on)
  | .returnStyle, .returnStyle value => some (.text value)
  | _, _ => none

/-- The value that the switches `given` have for the option `name`: that of the last one for it. -/
def flag? (given : List Switch) (name : OptionName) : Option Value :=
  (given.filterMap (Switch.valueFor? name)).getLast?

/-- The value that `w` wishes for an option. -/
def Wishes.value? (w : Wishes) : OptionName → Option Value
  | .singleReturnOnly => w.singleReturnOnly.map .bool
  | .disallowPrototype => w.disallowPrototype.map .bool
  | .returnStyle => w.returnStyle.map .text
  | .classPropertiesAllowed => w.classPropertiesAllowed.map .bool

theorem Wishes.value?_add (w : Wishes) (switch : Switch) (name : OptionName) :
    (w.add switch).value? name = (switch.valueFor? name).or (w.value? name) := by
  cases name <;> cases switch <;> rfl

/-- A switch gives a value where no later one does: `flag?` over `switch :: given`. -/
theorem flag?_cons (switch : Switch) (given : List Switch) (name : OptionName) :
    flag? (switch :: given) name = (flag? given name).or (switch.valueFor? name) := by
  rw [flag?, flag?]
  cases hvalue : switch.valueFor? name with
  | none => rw [List.filterMap_cons_none hvalue, Option.or_none]
  | some value =>
    rw [List.filterMap_cons_some hvalue, List.getLast?_cons]
    cases (given.filterMap (Switch.valueFor? name)).getLast? with
    | none => rfl
    | some later => rfl

/-- What is wished for an option after `ofSwitches given` is its `flag?`. -/
theorem Wishes.value?_ofSwitches (given : List Switch) (name : OptionName) :
    (Wishes.ofSwitches given).value? name = flag? given name := by
  -- by induction on the switches, over any wishes that there are already
  have foldl_value : ∀ w : Wishes,
      (given.foldl add w).value? name = (flag? given name).or (w.value? name) := by
    induction given with
    | nil => exact fun w => rfl
    | cons switch given ih =>
      intro w
      rw [List.foldl_cons, ih, value?_add, flag?_cons, Option.or_assoc]
  have hnothing : ({} : Wishes).value? name = none := by
    cases name <;> rfl
  rw [ofSwitches, foldl_value, hnothing, Option.or_none]

/-- Only for `returnStyle` can a switch give a value that the option does not admit. -/
theorem admits_or_of_flag? (h : flag? given name = some value) :
    name.Admits value ∨ name = .returnStyle := by
  obtain ⟨switch, -, hvalue⟩ := List.mem_filterMap.1 (List.mem_of_getLast? h)
  cases name with
  | returnStyle => exact .inr rfl
  | singleReturnOnly | disallowPrototype | classPropertiesAllowed =>
    left
    cases switch <;> cases hvalue
    exact ⟨_, rfl⟩

/-! ## Wishes as overrides -/

theorem Wishes.has_overrides_reservedName (w : Wishes) :
    w.overrides.has reservedName = false :=
  rfl

/-- A wish whose value is not `null` is told from the `null` that stands for no wish. -/
theorem map_eq_some_iff_getD_null {α : Type} {f : α → Value} (hf : ∀ a, f a ≠ .null)
    (wish : Option α) :
    wish.map f = some value ↔ value = (wish.map f).getD .null ∧ value ≠ .null := by
  cases wish with
  | none => exact iff_of_false nofun fun h => h.2 h.1
  | some a =>
    constructor
    · intro h
      obtain rfl := Option.some.inj h
      exact ⟨rfl, hf a⟩
    · exact fun h => congrArg some h.1.symm

/-- The table `w.overrides` has an entry with a value under the `spelling` of each option that is
    wished for, and `null` under the others. -/
theorem Wishes.value?_eq_some_iff {w : Wishes} :
    w.value? name = some value ↔ (name.spelling, value) ∈ w.overrides ∧ value ≠ .null := by
  have hflag (wish : Option Bool) : wish.map .bool = some value ↔
      value = (wish.map .bool).getD .null ∧ value ≠ .null :=
    map_eq_some_iff_getD_null (by simp) wish
  have hstyle (wish : Option String) : wish.map .text = some value ↔
      value = (wish.map .text).getD .null ∧ value ≠ .null :=
    map_eq_some_iff_getD_null (by simp) wish
  cases name with
  | returnStyle => simpa [overrides, value?, OptionName.spelling] using hstyle w.returnStyle
  | singleReturnOnly =>
    simpa [overrides, value?, OptionName.spelling] using hflag w.singleReturnOnly
  | disallowPrototype =>
    simpa [overrides, value?, OptionName.spelling] using hflag w.disallowPrototype
  | classPropertiesAllowed =>
    simpa [overrides, value?, OptionName.spelling] using hflag w.classPropertiesAllowed

theorem Wishes.exists_of_mem_overrides {w : Wishes} {entry : String × Value}
    (h : entry ∈ w.overrides) : ∃ name : OptionName, name.spelling = entry.1 := by
  have hkeys : ∀ entry ∈ w.overrides, entry.1 ∈ OptionName.all.map (·.spelling) := by
    simp [overrides, OptionName.all]
  obtain ⟨name, -, hname⟩ := List.mem_map.1 (hkeys entry h)
  exact ⟨name, hname⟩

/-- The value that `w.overrides` give for an option is what is wished for it. -/
theorem Wishes.given?_overrides (w : Wishes) (name : OptionName) :
    Options.given? w.overrides name = w.value? name := by
  have hkeys : (w.overrides.map (·.1)).Nodup :=
    (by decide : (OptionName.all.map (·.spelling)).Nodup)
  refine Option.ext fun value => ?_
  rw [Options.given?_eq_some_iff hkeys, value?_eq_some_iff]

/-- The table `w.overrides` is refused just when one of the wishes is no value for its option. -/
theorem Wishes.exists_withOverrides_eq_error_iff (w : Wishes) (o : Options) :
    (∃ e, o.withOverrides w.overrides = .error e) ↔
      ∃ name value, w.value? name = some value ∧ ¬OptionName.Admits name value := by
  rw [Options.exists_withOverrides_eq_error_iff w.has_overrides_reservedName]
  constructor
  · rintro ⟨⟨key, value⟩, hmem, hnull, hbad⟩
    obtain ⟨name, rfl⟩ := exists_of_mem_overrides hmem
    exact ⟨name, value, value?_eq_some_iff.2 ⟨hmem, hnull⟩, hbad name rfl⟩
  · rintro ⟨name, value, hvalue, hbad⟩
    obtain ⟨hmem, hnull⟩ := value?_eq_some_iff.1 hvalue
    refine ⟨_, hmem, hnull, fun other hother => ?_⟩
    rwa [OptionName.eq_of_spelling_eq hother]

/-! ## The options that a command runs with -/

/-- A command has a workspace just when its `format` is known and the options can be set as wished;
    those are the ones that it runs with. -/
theorem prepare_spec (env : Environment) (settings : Settings) (wishes : Wishes) :
    (∀ workspace, (prepare env settings wishes).2 = some workspace →
      settings.options.withOverrides wishes.overrides = .ok workspace.linter.rule.options) ∧
    ((∃ workspace, (prepare env settings wishes).2 = some workspace) ↔
      (wishes.format = "text" ∨ wishes.format = "json") ∧
        ¬∃ e, settings.options.withOverrides wishes.overrides = .error e) := by
  unfold prepare
  split
  case isTrue hformat =>
    have hunknown : ¬(wishes.format = "text" ∨ wishes.format = "json") := by
      simpa [not_or] using hformat
    refine ⟨fun workspace h => ?_, iff_of_false ?_ fun h => hunknown h.1⟩
    · cases h
    · rintro ⟨workspace, h⟩
      cases h
  case isFalse hformat =>
    have hknown : wishes.format = "text" ∨ wishes.format = "json" := by
      simpa [or_iff_not_imp_left] using hformat
    cases settings.options.withOverrides wishes.overrides with
    | error e =>
      refine ⟨fun workspace h => ?_, iff_of_false ?_ fun h => h.2 ⟨e, rfl⟩⟩
      · cases h
      · rintro ⟨workspace, h⟩
        cases h
    | ok options =>
      refine ⟨fun workspace h => ?_, iff_of_true ⟨_, rfl⟩ ⟨hknown, nofun⟩⟩
      obtain rfl := Option.some.inj h
      rfl

/-- A command runs with the value of `flag?` for each option, and with that of the settings where
    there is none. -/
theorem valueOf_of_prepare (h : (prepare env settings (Wishes.ofSwitches given)).2 = some workspace)
    (name : OptionName) : workspace.linter.rule.options.valueOf name
      = (flag? given name).getD (settings.options.valueOf name) := by
  have hset := (prepare_spec env settings (Wishes.ofSwitches given)).1 workspace h
  rw [Options.valueOf_of_withOverrides (Wishes.ofSwitches given).has_overrides_reservedName hset,
    Wishes.given?_overrides, Wishes.value?_ofSwitches]

/-! ## Calls over files -/

/-- Whether a call finds the settings `loaded`, good or bad. -/
def Finds (env : Environment) (s : FileStore) (loaded : LoadedSettings) : Prop :=
  SettingsFile.load s env.settingsParser env.directory = .ok loaded

/-- Whether `args` ask for a run over files, be it `check` or `fix`. -/
def AsksForRun (env : Environment) (args : List String) (wishes : Wishes) (paths : List String) :
    Prop :=
  env.console.read args = some (.check wishes paths) ∨
    env.console.read args = some (.fix wishes paths)

/-- Where a call `Finds` settings, a run `IsFollowedIn` a workspace under these and no others. -/
theorem Finds.isFollowedIn_iff (h : Finds env s loaded)
    (htable : Settings.ofTable loaded.table = .ok settings) :
    IsFollowedIn env s wishes workspace ↔ (prepare env settings wishes).2 = some workspace := by
  constructor
  · rintro ⟨settings', ⟨loaded', hload, htable'⟩, hprepare⟩
    rw [h] at hload
    obtain rfl := Except.ok.inj hload
    rw [htable] at htable'
    obtain rfl := Except.ok.inj htable'
    exact hprepare
  · exact fun hprepare => ⟨settings, ⟨loaded, h, htable⟩, hprepare⟩

/-- The `Exit` of a call that cannot be followed, with the notices of `prepare`. -/
def refusedExit (env : Environment) (loaded : LoadedSettings) (settings : Settings)
    (wishes : Wishes) : Exit :=
  { code := configCode, stdout := ""
    stderr := early (loaded.log ++ Settings.warnings loaded.table)
      ++ transcript env.console wishes.verbose (prepare env settings wishes).1 }

/-- A call without a workspace ends at once with `refusedExit`, whatever the sources are. -/
theorem Finds.call_of_prepare_eq_none (h : Finds env s loaded)
    (htable : Settings.ofTable loaded.table = .ok settings)
    (hnone : (prepare env settings wishes).2 = none) (hargs : AsksForRun env args wishes paths) :
    call env s args = (s, .exit (refusedExit env loaded settings wishes)) := by
  rw [call, h]
  dsimp only
  rw [htable]
  dsimp only
  rcases hargs with hcheck | hfix
  · rw [invoke, hcheck]
    dsimp only
    rw [check, prepare_eq hnone]
    rfl
  · rw [invoke, hfix]
    dsimp only
    rw [fix, prepare_eq hnone]
    rfl

/-! ## Three layers -/

/-- Options are set in layers, and a later layer decides where it says something. A run has for each
    option the value of its last switch (`flag?`), else the one of the settings (`configured?`),
    else the default. It cannot be followed just when its format is unknown or a switch gives a bad
    value; only `returnStyle` can be given one, and then the call ends with `configCode`, whatever
    the sources are, and leaves them alone. Overriding twice is overriding once with both layers
    merged, where `null` says nothing, and `withOverrides` refuses just a value that is not null and
    that the option of its name does not admit. No entry may have the `reservedName`. -/
theorem options_in_layers (env : Environment) {loaded : LoadedSettings} {settings : Settings}
    (htable : Settings.ofTable loaded.table = .ok settings) (given : List Switch) :
    (∀ s, Finds env s loaded →
      ∀ workspace, IsFollowedIn env s (Wishes.ofSwitches given) workspace → ∀ name,
        workspace.linter.rule.options.valueOf name
          = ((flag? given name).or (Settings.configured? loaded.table name)).getD
              (({} : Options).valueOf name)) ∧
    (∀ s, Finds env s loaded →
      ((∃ workspace, IsFollowedIn env s (Wishes.ofSwitches given) workspace) ↔
        ((Wishes.ofSwitches given).format = "text" ∨ (Wishes.ofSwitches given).format = "json") ∧
          ∀ name value, flag? given name = some value → OptionName.Admits name value)) ∧
    (∀ name value, flag? given name = some value →
      OptionName.Admits name value ∨ name = .returnStyle) ∧
    ((∃ name value, flag? given name = some value ∧ ¬OptionName.Admits name value) →
      ∃ exit : Exit, exit.code = configCode ∧ ∀ s args paths, Finds env s loaded →
        AsksForRun env args (Wishes.ofSwitches given) paths → call env s args = (s, .exit exit)) ∧
    (∀ (o : Options) (a b : Table), a.has reservedName = false → b.has reservedName = false →
      (∀ entry ∈ a, Options.IsSettable entry) → (∀ entry ∈ b, Options.IsSettable entry) →
      ∃ o', ((o.withOverrides a).bind fun o => o.withOverrides b) = .ok o' ∧
        o.withOverrides (a.overriddenBy b) = .ok o') ∧
    (∀ (o : Options) (t : Table), t.has reservedName = false →
      ((∃ e, o.withOverrides t = .error e) ↔ ∃ entry ∈ t, entry.2 ≠ .null ∧
        ∀ name : OptionName, name.spelling = entry.1 → ¬name.Admits entry.2) ∧
      ∀ e, o.withOverrides t = .error e → ∃ entry ∈ t, Options.Refuses entry e) ∧
    (∀ (o : Options) (t : Table), t.has reservedName = true →
      o.withOverrides t = .error .reserved) := by
  have hbad : (∃ e, settings.options.withOverrides (Wishes.ofSwitches given).overrides = .error e) ↔
      ∃ name value, flag? given name = some value ∧ ¬OptionName.Admits name value := by
    rw [Wishes.exists_withOverrides_eq_error_iff]
    simp only [Wishes.value?_ofSwitches]
  have hspec := (prepare_spec env settings (Wishes.ofSwitches given)).2
  rw [hbad] at hspec
  refine ⟨?values, ?followed, fun name value => admits_or_of_flag?, ?refused,
    fun o a b ha hb hsa hsb => Options.withOverrides_overriddenBy ha hb hsa hsb o,
    fun o t hself => ⟨Options.exists_withOverrides_eq_error_iff hself, fun e =>
      Options.exists_refuses_of_withOverrides hself⟩, fun o t h => if_pos h⟩
  case values =>
    intro s hfinds workspace hfollowed name
    have hprepare := (hfinds.isFollowedIn_iff htable).1 hfollowed
    have hoptions := (Settings.ofTable_eq_ok_iff.1 htable).1
    rw [valueOf_of_prepare hprepare, Settings.valueOf_of_ofSettings hoptions, Option.getD_or]
  case followed =>
    intro s hfinds
    simp only [hfinds.isFollowedIn_iff htable]
    rw [hspec]
    simp only [not_exists, not_and, not_not]
  case refused =>
    intro hflag
    refine ⟨refusedExit env loaded settings (Wishes.ofSwitches given), rfl, ?_⟩
    intro s args paths hfinds hargs
    have hnone : (prepare env settings (Wishes.ofSwitches given)).2 = none := by
      rw [Option.eq_none_iff_forall_ne_some]
      intro workspace hprepare
      exact (hspec.1 ⟨workspace, hprepare⟩).2 hflag
    exact hfinds.call_of_prepare_eq_none htable hnone hargs

/-- The settings file of a project that wants `explicit` bodies, and functions of prototypes
    reported. -/
def explicitSettingsText : String :=
  "[tool.prefer-arrow]\nreturnStyle = \"explicit\"\ndisallowPrototype = true\n"

/-- The section that `explicitSettingsText` holds. -/
def explicitSettings : Table :=
  [("returnStyle", .text "explicit"), ("disallowPrototype", .bool true)]

/-- The settings that `SettingsFile.load` finds in `explicitProject`. -/
def explicitLoaded : LoadedSettings :=
  { table := explicitSettings
    log := [SettingsFile.loadRecord ⟨["p", "pyproject.toml"]⟩ "prefer-arrow"] }

/-- The project with `function f() {}` and that settings file. -/
def explicitProject : FileStore :=
  { FileStore.emptyFunction with
    files := (⟨["p", "pyproject.toml"]⟩, Bytes.ofText explicitSettingsText)
      :: FileStore.emptyFunction.files }

/-- The surroundings of `explicitProject`, with a parser that reads `explicitSettingsText`. -/
def Environment.explicitProject : Environment :=
  { Environment.emptyFunction with
    settingsParser := fun text =>
      if text == explicitSettingsText then
        some [("tool", .table [("prefer-arrow", .table explicitSettings)])]
      else none }

/-- A check of `explicitProject`: one switch turns off what its settings turn on, another one turns
    on what they do not mention; then a return style that is none, and two layers of overrides, the
    later one with a `null`. -/
theorem options_in_layers_explicitProject :
    (∃ workspace, IsFollowedIn .explicitProject explicitProject
        (Wishes.ofSwitches [.singleReturnOnly true, .disallowPrototype false]) workspace ∧
      workspace.linter.rule.options
        = { singleReturnOnly := true, disallowPrototype := false, returnStyle := .explicit }) ∧
    (∃ exit : Exit, exit.code = configCode ∧
      call .explicitProject explicitProject ["check", "--return-style", "arrow", "a.ts"]
        = (explicitProject, .exit exit)) ∧
    ∃ o', ((({} : Options).withOverrides [("return_style", .text "explicit")]).bind fun o =>
        o.withOverrides [("return_style", .null), ("single_return_only", .bool true)]) = .ok o' ∧
      ({} : Options).withOverrides (Table.overriddenBy [("return_style", .text "explicit")]
        [("return_style", .null), ("single_return_only", .bool true)]) = .ok o' := by
  have hfinds : Finds .explicitProject explicitProject explicitLoaded := by
    rfl
  have htable : Settings.ofTable explicitLoaded.table = .ok
      { options := { disallowPrototype := true, returnStyle := .explicit }
        exclude := [], extensions := Settings.defaultExtensions } := rfl
  refine ⟨?_, ?_, ?_⟩
  · obtain ⟨hvalues, hfollowed, -⟩ := options_in_layers .explicitProject htable
      [.singleReturnOnly true, .disallowPrototype false]
    have hadmits : ∀ name value,
        flag? [.singleReturnOnly true, .disallowPrototype false] name = some value →
          OptionName.Admits name value := by
      intro name value hflag
      rcases admits_or_of_flag? hflag with hgood | rfl
      · exact hgood
      · cases hflag
    obtain ⟨workspace, hworkspace⟩ := (hfollowed _ hfinds).2 ⟨.inl rfl, hadmits⟩
    refine ⟨workspace, hworkspace, Options.ext_valueOf fun name => ?_⟩
    rw [hvalues _ hfinds workspace hworkspace]
    cases name <;> rfl
  · obtain ⟨-, -, -, hrefused, -⟩ :=
      options_in_layers .explicitProject htable [.returnStyle "arrow"]
    have hbad : ¬OptionName.returnStyle.Admits (.text "arrow") := by
      rintro ⟨style, h⟩
      cases style <;> simp [ReturnStyle.spelling] at h
    have hargs : AsksForRun .explicitProject ["check", "--return-style", "arrow", "a.ts"]
        (Wishes.ofSwitches [.returnStyle "arrow"]) ["a.ts"] := by
      left
      rfl
    obtain ⟨exit, hcode, hcall⟩ := hrefused ⟨.returnStyle, _, rfl, hbad⟩
    exact ⟨exit, hcode, hcall _ _ _ hfinds hargs⟩
  · obtain ⟨-, -, -, -, hlayers, -⟩ := options_in_layers .explicitProject htable []
    have hstyle : Options.IsSettable ("return_style", .text "explicit") :=
      .inr ⟨.returnStyle, rfl, .explicit, rfl⟩
    have hsingle : Options.IsSettable ("single_return_only", .bool true) :=
      .inr ⟨.singleReturnOnly, rfl, true, rfl⟩
    exact hlayers {} _ _ rfl rfl (List.forall_mem_singleton.2 hstyle)
      (List.forall_mem_cons.2 ⟨.inl rfl, List.forall_mem_singleton.2 hsingle⟩)

/-- No override may have the `reservedName`, although it is no option and may be null:
    `withOverrides` does not refuse bad entries alone, and not every two layers can be merged. -/
theorem withOverrides_reserved :
    (¬∀ (o : Options) (t : Table), (∃ e, e ≠ .reserved ∧ o.withOverrides t = .error e) ↔
      ∃ entry ∈ t, entry.2 ≠ .null ∧
        ∀ name : OptionName, name.spelling = entry.1 → ¬name.Admits entry.2) ∧
    ¬∀ (o : Options) (a b : Table), (∀ entry ∈ a, Options.IsSettable entry) →
      (∀ entry ∈ b, Options.IsSettable entry) →
      ∃ o', ((o.withOverrides a).bind fun o => o.withOverrides b) = .ok o' ∧
        o.withOverrides (a.overriddenBy b) = .ok o' := by
  refine ⟨fun herror => ?_, fun hlayers => ?_⟩
  · obtain ⟨e, hne, he⟩ := (herror {} [("self", .bool true)]).2
      ⟨_, List.mem_singleton.2 rfl, nofun,
        fun name hname => absurd hname name.spelling_ne_reservedName⟩
    exact hne (Except.error.inj he).symm
  · obtain ⟨o', ho', -⟩ := hlayers {} [("self", .null)] []
      (fun entry hmem => .inl (congrArg Prod.snd (List.mem_singleton.1 hmem))) nofun
    cases ho'

end ArrowLint.CommandLine
