/-
  ArrowLint.Proofs.CommandLine.Loading

  What a settings file can do to a call. The file is the one in the nearest directory upwards that
  has one (`SettingsFile.find?_eq_some_iff`). A call finds good settings, or refuses them and ends
  with the code for that, or breaks off (`CommandLine.settings_file_decides`). It breaks off for
  two reasons only: the file holds no text, or what should hold the sections of tools is there and
  is no table (`SettingsFile.IsUnfit`).
-/

import ArrowLint.Proofs.CommandLine.Exit

namespace ArrowLint

/-! ## The nearest settings file -/

theorem Location.mem_upwards_iff {above place : Location} :
    above ∈ place.upwards ↔ above.names <+: place.names := by
  simp only [upwards, List.mem_map, List.mem_reverse, List.mem_range]
  constructor
  · rintro ⟨n, -, rfl⟩
    exact List.take_prefix n place.names
  · intro h
    refine ⟨above.names.length, Nat.lt_succ_of_le h.length_le, ?_⟩
    rw [← List.prefix_iff_eq_take.1 h]

/-- Along `place.upwards` names become fewer. -/
theorem Location.pairwise_upwards (place : Location) :
    place.upwards.Pairwise fun first second => second.names.length < first.names.length := by
  rw [upwards, List.pairwise_map, List.pairwise_reverse]
  refine List.pairwise_lt_range.imp_of_mem ?_
  intro m n hm hn hlt
  have hle := List.mem_range.1 hn
  simp only [List.length_take]
  omega

namespace SettingsFile

variable {s : FileStore} {start directory : Location} {parser : SettingsParser} {e : LoadError}

/-- Whether `directory` is the nearest one upwards from `start` that has a settings file. -/
structure IsNearest (s : FileStore) (start directory : Location) : Prop where
  isAbove : directory.names <+: start.names
  isFile : s.isFile (directory.child name) = true
  isFirst : ∀ other : Location, other.names <+: start.names →
    directory.names.length < other.names.length → s.isFile (other.child name) = false

/-- At most one directory `IsNearest`. -/
theorem IsNearest.eq {other : Location} (h : IsNearest s start directory)
    (hother : IsNearest s start other) : other = directory := by
  have hlength : other.names.length = directory.names.length := by
    rcases Nat.lt_trichotomy other.names.length directory.names.length with hlt | heq | hlt
    · have hfile := h.isFile
      rw [hother.isFirst directory h.isAbove hlt] at hfile
      cases hfile
    · exact heq
    · have hfile := hother.isFile
      rw [h.isFirst other hother.isAbove hlt] at hfile
      cases hfile
  apply Location.eq_of_names_eq
  rw [List.prefix_iff_eq_take.1 hother.isAbove, List.prefix_iff_eq_take.1 h.isAbove, hlength]

/-- The first of `start.upwards` with a settings file `IsNearest`. -/
theorem isNearest_of_find?
    (h : start.upwards.find? (fun above => s.isFile (above.child name)) = some directory) :
    IsNearest s start directory := by
  obtain ⟨hfile, before, after, hsplit, hno⟩ := List.find?_eq_some_iff_append.1 h
  -- what comes after the find on the way upwards has fewer names
  have horder := start.pairwise_upwards
  rw [hsplit, List.pairwise_append] at horder
  refine ⟨Location.mem_upwards_iff.1 (by rw [hsplit]; simp), hfile, fun other hother hlonger => ?_⟩
  have hmem := Location.mem_upwards_iff.2 hother
  rw [hsplit, List.mem_append, List.mem_cons] at hmem
  rcases hmem with hbefore | rfl | hafter
  · simpa using hno other hbefore
  · exact absurd hlonger (Nat.lt_irrefl _)
  · exact absurd hlonger (Nat.lt_asymm (List.rel_of_pairwise_cons horder.2.1 hafter))

/-- The file that `find?` gives for `start` is the one in the directory that `IsNearest`. -/
theorem find?_eq_some_iff {place : Location} : find? s start = some place ↔
    ∃ directory, IsNearest s start directory ∧ directory.child name = place := by
  rw [find?, List.find?_map, Option.map_eq_some_iff]
  refine exists_congr fun directory => and_congr_left fun _ => ⟨isNearest_of_find?, fun h => ?_⟩
  cases hfind : start.upwards.find? (s.isFile ∘ (·.child name)) with
  | none =>
    exact absurd h.isFile (List.find?_eq_none.1 hfind _ (Location.mem_upwards_iff.2 h.isAbove))
  | some other => rw [h.eq (isNearest_of_find? hfind)]

/-! ## Unfit files -/

/-- What keeps `data` from being read as settings: it is no text, or what stands under `tool` is
    present and no table. -/
inductive IsUnfit (parser : SettingsParser) (data : Bytes) : LoadError → Prop where
  | notText (isNoText : Bytes.text? data = none) : IsUnfit parser data .notText
  | noSections {text : String} {document : Table} {tool : Value}
      (isText : Bytes.text? data = some text) (parses : parser text = some document)
      (hasTool : document.get? "tool" = some tool) (isPresent : tool.isPresent = true)
      (isNoTable : ∀ sections, tool ≠ .table sections) : IsUnfit parser data .noSections

/-- The `toolSections` of a document fail just with `noSections`, where something is under `tool`
    that is present and no table. -/
theorem toolSections_eq_error_iff {document : Table} : toolSections document = .error e ↔
    e = .noSections ∧ ∃ tool, document.get? "tool" = some tool ∧ tool.isPresent = true ∧
      ∀ sections, tool ≠ .table sections := by
  rw [toolSections]
  cases document.get? "tool" with
  | none => exact iff_of_false nofun fun ⟨_, _, h, _⟩ => nomatch h
  | some tool =>
    dsimp only
    cases hpresent : tool.isPresent with
    | false =>
      refine iff_of_false nofun ?_
      rintro ⟨-, tool', htool, hpresent', -⟩
      obtain rfl := Option.some.inj htool
      rw [hpresent] at hpresent'
      cases hpresent'
    | true =>
      cases tool with
      | table sections =>
        refine iff_of_false nofun ?_
        rintro ⟨-, tool', htool, -, hno⟩
        exact hno sections (Option.some.inj htool).symm
      | null | bool | int | decimal | text | list =>
        constructor
        · intro h
          exact ⟨(Except.error.inj h).symm, _, rfl, hpresent, nofun⟩
        · rintro ⟨rfl, -⟩
          rfl

/-- A file `IsUnfit` where it holds no text, and where the `toolSections` of its document fail. -/
theorem isUnfit_iff {data : Bytes} : IsUnfit parser data e ↔
    (Bytes.text? data = none ∧ e = .notText) ∨ ∃ text document, Bytes.text? data = some text ∧
      parser text = some document ∧ toolSections document = .error e := by
  simp only [toolSections_eq_error_iff]
  constructor
  · rintro (isNoText | ⟨isText, parses, hasTool, isPresent, isNoTable⟩)
    · exact .inl ⟨isNoText, rfl⟩
    · exact .inr ⟨_, _, isText, parses, rfl, _, hasTool, isPresent, isNoTable⟩
  · rintro (⟨isNoText, rfl⟩ | ⟨_, _, isText, parses, rfl, _, hasTool, isPresent, isNoTable⟩)
    · exact .notText isNoText
    · exact .noSections isText parses hasTool isPresent isNoTable

/-- Where the nearest settings file can be read, `load` fails if the file `IsUnfit`, and with
    `malformed` if the parser has no document for it. -/
theorem IsNearest.load_eq_error_iff {data : Bytes} (h : IsNearest s start directory)
    (hdata : s.contents? (directory.child name) = some data) :
    load s parser start = .error e ↔ IsUnfit parser data e ∨
      ∃ text, Bytes.text? data = some text ∧ parser text = none ∧
        e = .config (.malformed (directory.child name).toText) := by
  rw [load, find?_eq_some_iff.2 ⟨directory, h, rfl⟩, isUnfit_iff]
  dsimp only
  rw [FileStore.readBytes, hdata]
  dsimp only
  cases Bytes.text? data with
  | none => simp [eq_comm]
  | some text =>
    cases hparse : parser text with
    | none => simp [hparse, eq_comm]
    | some document =>
      cases hsections : toolSections document with
      | error e' => simp [hparse, settingsIn, hsections, Except.map]
      | ok sections => simp [hparse, settingsIn, hsections, Except.map]

/-- Where `load` fails there is a nearest settings file, and it can be read. -/
theorem exists_isNearest_of_load (h : load s parser start = .error e) :
    ∃ directory data, IsNearest s start directory ∧
      s.contents? (directory.child name) = some data := by
  cases hfind : find? s start with
  | none =>
    rw [load, hfind] at h
    cases h
  | some place =>
    obtain ⟨directory, hnearest, rfl⟩ := find?_eq_some_iff.1 hfind
    obtain ⟨data, hdata⟩ := Option.isSome_iff_exists.1 hnearest.isFile
    exact ⟨directory, data, hnearest, hdata⟩

/-- The load fails with what is no `ConfigError` just where the nearest file `IsUnfit`. -/
theorem load_eq_error_iff_isUnfit :
    (load s parser start = .error e ∧ ∀ refused, e ≠ .config refused) ↔
      ∃ directory data, IsNearest s start directory ∧
        s.contents? (directory.child name) = some data ∧ IsUnfit parser data e := by
  constructor
  · rintro ⟨hload, hother⟩
    obtain ⟨directory, data, hnearest, hdata⟩ := exists_isNearest_of_load hload
    refine ⟨directory, data, hnearest, hdata, ?_⟩
    rcases (hnearest.load_eq_error_iff hdata).1 hload with hunfit | ⟨-, -, -, hmalformed⟩
    · exact hunfit
    · exact absurd hmalformed (hother _)
  · rintro ⟨directory, data, hnearest, hdata, hunfit⟩
    refine ⟨(hnearest.load_eq_error_iff hdata).2 (.inl hunfit), ?_⟩
    cases hunfit with
    | notText => exact nofun
    | noSections => exact nofun

end SettingsFile

namespace CommandLine

open SettingsFile

variable {env : Environment} {settings : Settings} {s : FileStore} {wishes : Wishes}
  {args paths : List String}

/-! ## How calls end -/

/-- The command `rules` does not break off for settings. -/
theorem rules_ne_failure (console : Console) (registry : Table) (id : Option String)
    (e : LoadError) : rules console registry id ≠ .failure (.settings e) := by
  have hlist : listRules console registry ≠ .failure (.settings e) := by
    rw [listRules]
    split
    · exact nofun
    · exact nofun
  have hexplain : ∀ id, explainRule console registry id ≠ .failure (.settings e) := by
    intro id
    rw [explainRule]
    split
    · exact nofun
    · split
      · exact nofun
      · exact nofun
  cases id with
  | none => exact hlist
  | some id =>
    dsimp only [rules]
    split
    · exact hlist
    · exact hexplain id

theorem check_ne_failure (env : Environment) (settings : Settings) (s : FileStore) (wishes : Wishes)
    (paths : List String) (e : LoadError) :
    check env settings s wishes paths ≠ .failure (.settings e) := by
  rw [check]
  split
  · exact nofun
  · split
    · exact nofun
    · exact nofun

theorem fix_ne_failure (env : Environment) (settings : Settings) (s : FileStore) (wishes : Wishes)
    (paths : List String) (e : LoadError) :
    (fix env settings s wishes paths).2 ≠ .failure (.settings e) := by
  rw [fix]
  split
  · exact nofun
  · dsimp only
    split
    · exact nofun
    · exact nofun

/-- With settings given, `invoke` does not break off for them. -/
theorem invoke_ne_failure (env : Environment) (settings : Settings) (s : FileStore)
    (args : List String) (e : LoadError) :
    (invoke env settings s args).2 ≠ .failure (.settings e) := by
  rw [invoke]
  split
  · intro h
    cases h
  · exact check_ne_failure env settings s _ _ e
  · exact fix_ne_failure env settings s _ _ e
  · exact rules_ne_failure env.console env.registry _ e

/-- What `Ending.after` puts ahead of the error stream makes no `failure`. -/
theorem Ending.after_eq_failure_iff {ending : Ending} {text : String} {failure : Failure} :
    ending.after text = .failure failure ↔ ending = .failure failure := by
  cases ending with
  | usage => exact Iff.rfl
  | exit exit => exact iff_of_false nofun nofun
  | failure other => exact Iff.rfl

/-- The `Exit` for a configuration error: `configCode`, and the error after what else is told. -/
def configExit (console : Console) (told : String) (e : ConfigError) : Exit :=
  { code := configCode, stdout := "", stderr := told ++ console.tell (configNotice e) }

/-- A call whose settings `Settings.ofTable` refuses ends with `configExit`. -/
theorem call_of_ofTable_eq_error {loaded : LoadedSettings} {e : ConfigError}
    (hload : load s env.settingsParser env.directory = .ok loaded)
    (htable : Settings.ofTable loaded.table = .error e) (args : List String) :
    call env s args = (s, .exit (configExit env.console
      (early (loaded.log ++ Settings.warnings loaded.table)) e)) := by
  rw [call, hload]
  dsimp only
  rw [htable]
  rfl

/-- A call breaks off for its settings just where `load` fails with what is no `ConfigError`. -/
theorem call_eq_failure_iff {e : LoadError} : (call env s args).2 = .failure (.settings e) ↔
    load s env.settingsParser env.directory = .error e ∧ ∀ refused, e ≠ .config refused := by
  cases hload : load s env.settingsParser env.directory with
  | error e' =>
    rw [call, hload]
    cases e' with
    | config refused =>
      refine iff_of_false nofun ?_
      rintro ⟨h, hother⟩
      exact hother refused (Except.error.inj h).symm
    | notText | noSections =>
      constructor
      · intro h
        cases h
        exact ⟨rfl, nofun⟩
      · rintro ⟨h, -⟩
        rw [← Except.error.inj h]
  | ok loaded =>
    refine iff_of_false ?_ nofun
    cases htable : Settings.ofTable loaded.table with
    | error refused =>
      rw [call_of_ofTable_eq_error hload htable]
      exact nofun
    | ok settings =>
      rw [call, hload]
      dsimp only
      rw [htable]
      dsimp only
      rw [Ending.after_eq_failure_iff]
      exact invoke_ne_failure env settings s args e

/-- What the nearest settings file can do to a call. The call `Loads` good settings, or it ends with
    `configExit`, or it breaks off; neither of the latter touches a file. It breaks off just for a
    nearest file that `IsUnfit`. -/
theorem settings_file_decides (env : Environment) (s : FileStore) (args : List String) :
    ((∃ settings, Loads env s settings) ∨
      (∃ told e, call env s args = (s, .exit (configExit env.console told e))) ∨
      ∃ e, call env s args = (s, .failure (.settings e))) ∧
    ∀ e, (call env s args).2 = .failure (.settings e) ↔
      ∃ directory data, IsNearest s env.directory directory ∧
        s.contents? (directory.child name) = some data ∧ IsUnfit env.settingsParser data e := by
  refine ⟨?_, fun e => call_eq_failure_iff.trans load_eq_error_iff_isUnfit⟩
  cases hload : load s env.settingsParser env.directory with
  | error e =>
    right
    rw [call, hload]
    cases e with
    | config refused => exact .inl ⟨"", refused, by rw [configExit, String.empty_append]; rfl⟩
    | notText | noSections => exact .inr ⟨_, rfl⟩
  | ok loaded =>
    cases htable : Settings.ofTable loaded.table with
    | error refused => exact .inr (.inl ⟨_, refused, call_of_ofTable_eq_error hload htable args⟩)
    | ok settings => exact .inl ⟨settings, loaded, hload, htable⟩

/-- A project whose settings file holds `data`. -/
def projectWith (data : Bytes) : FileStore :=
  { files := [(⟨["p", "pyproject.toml"]⟩, data)], directories := [] }

/-- The byte `0xff` is no text, so it breaks off a check of the project. -/
theorem settings_file_decides_notText :
    IsNearest (projectWith [0xff]) ⟨["p"]⟩ ⟨["p"]⟩ ∧
    (call .emptyFunction (projectWith [0xff]) ["check"]).2 = .failure (.settings .notText) := by
  have hnearest : IsNearest (projectWith [0xff]) ⟨["p"]⟩ ⟨["p"]⟩ := by
    refine ⟨List.prefix_rfl, by decide, fun other hother hlonger => ?_⟩
    exact absurd hlonger (Nat.not_lt.2 hother.length_le)
  have hunfit : IsUnfit Environment.emptyFunction.settingsParser [0xff] .notText :=
    .notText (by decide +kernel)
  exact ⟨hnearest, ((settings_file_decides .emptyFunction (projectWith [0xff]) ["check"]).2 _).2
    ⟨_, _, hnearest, rfl, hunfit⟩⟩

/-- A settings file with a number under `tool`. -/
def toolNumberText : String := "tool = 3\n"

/-- Surroundings with a parser that knows `toolNumberText`. -/
def Environment.toolNumber : Environment :=
  { Environment.emptyFunction with
    settingsParser := fun text => if text == toolNumberText then some [("tool", .int 3)] else none }

/-- Not every settings file is good or refused with a `ConfigError`: a number under `tool` breaks
    the call off. -/
theorem tool_number_breaks_off :
    ¬∀ (env : Environment) (s : FileStore) (args : List String),
      (∃ settings, Loads env s settings) ∨
        ∃ told e, call env s args = (s, .exit (configExit env.console told e)) := by
  intro hgood
  have hload : load (projectWith (Bytes.ofText toolNumberText))
      Environment.toolNumber.settingsParser Environment.toolNumber.directory
        = .error .noSections := rfl
  rcases hgood .toolNumber (projectWith (Bytes.ofText toolNumberText)) ["check"] with
    ⟨settings, loaded, hok, -⟩ | ⟨told, e, hcall⟩
  · rw [hload] at hok
    cases hok
  · rw [call, hload] at hcall
    cases hcall

end CommandLine

end ArrowLint
