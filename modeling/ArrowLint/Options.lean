/-
  ArrowLint.Options

  The four options of the rule, and how they are set from values whose type nobody has
  checked. An option has two names: the one of the settings file is written in camel
  case, the one used everywhere else with underscores; settings may use either.

    * `Options.withOverrides` sets options over given ones, leaving out what is null;
    * `Options.ofSettings` reads the options of a settings table.
-/

import ArrowLint.Value.Literal

namespace ArrowLint

/-! ## Options and their values -/

/-- How the bodies of arrow functions are written; `ReturnStyle.spelling` is the value in
    settings. -/
inductive ReturnStyle where
  /-- Bodies stay as they are. -/
  | unchanged
  /-- Bodies are blocks that return. -/
  | explicit
  /-- Bodies that only return are expressions. -/
  | implicit
  deriving DecidableEq

namespace ReturnStyle

/-- The value that selects a style, as `ofSpelling?` reads it. -/
def spelling : ReturnStyle → String
  | .unchanged => "unchanged"
  | .explicit => "explicit"
  | .implicit => "implicit"

/-- The styles, in the order in which `ConfigError.message` lists them. -/
def all : List ReturnStyle :=
  [.unchanged, .explicit, .implicit]

/-- The style whose `spelling` is `s`. -/
def ofSpelling? (s : String) : Option ReturnStyle :=
  all.find? (·.spelling == s)

end ReturnStyle

/-- The options of the rule, all off and with `unchanged` bodies by default. -/
structure Options where
  /-- Report only functions whose body is a single return. -/
  singleReturnOnly : Bool := false
  /-- Report functions that are assigned to a prototype, too. -/
  disallowPrototype : Bool := false
  returnStyle : ReturnStyle := .unchanged
  /-- Report methods and function fields of classes, too. -/
  classPropertiesAllowed : Bool := false
  deriving DecidableEq

/-- The names of the fields of `Options`. -/
inductive OptionName where
  | singleReturnOnly
  | disallowPrototype
  | returnStyle
  | classPropertiesAllowed
  deriving DecidableEq

namespace OptionName

/-- The name with underscores, which `Options.override` takes. -/
def spelling : OptionName → String
  | .singleReturnOnly => "single_return_only"
  | .disallowPrototype => "disallow_prototype"
  | .returnStyle => "return_style"
  | .classPropertiesAllowed => "class_properties_allowed"

/-- The name in camel case, which settings may use too. -/
def camelSpelling : OptionName → String
  | .singleReturnOnly => "singleReturnOnly"
  | .disallowPrototype => "disallowPrototype"
  | .returnStyle => "returnStyle"
  | .classPropertiesAllowed => "classPropertiesAllowed"

/-- The options, in the order of the fields of `Options`. -/
def all : List OptionName :=
  [.singleReturnOnly, .disallowPrototype, .returnStyle, .classPropertiesAllowed]

/-- The option whose `spelling` is `s`. -/
def ofSpelling? (s : String) : Option OptionName :=
  all.find? (·.spelling == s)

/-- The option of a `key` of the settings, in its `camelSpelling` or its `spelling`. -/
def ofKey? (key : String) : Option OptionName :=
  all.find? fun name => name.camelSpelling == key || name.spelling == key

end OptionName

/-- The name that stands for the options themselves, so that `Options.withOverrides` refuses it. -/
def reservedName : String := "self"

/-- No option has the `spelling` that is `reservedName`. -/
theorem OptionName.spelling_ne_reservedName (name : OptionName) :
    name.spelling ≠ reservedName := by
  cases name <;> decide

/-! ## What can be wrong with settings -/

/-- Why settings are refused; `ConfigError.message` words it. -/
inductive ConfigError where
  | notReturnStyle (value : Value)
  | notFlag (name : OptionName) (value : Value)
  | unknownOption (name : String)
  /-- An override has the `reservedName`. -/
  | reserved
  /-- The settings file at `path` is no document of its format. -/
  | malformed (path : String)

/-- The wording of a `ConfigError`. -/
def ConfigError.message : ConfigError → String
  | .notReturnStyle value =>
    "returnStyle must be one of " ++ ", ".intercalate (ReturnStyle.all.map (·.spelling))
      ++ "; got " ++ value.literal
  | .notFlag name value => name.spelling ++ " must be a boolean; got " ++ value.literal
  | .unknownOption name => "Unknown option: " ++ name
  | .reserved => "Reserved option: " ++ reservedName
  | .malformed path => "Invalid TOML in " ++ path

/-! ## Setting options -/

/-- The style that a value names. A `Value` is one of a document, so it is never a `ReturnStyle`
    already. -/
def ReturnStyle.ofValue (value : Value) : Except ConfigError ReturnStyle :=
  match value with
  | .text s =>
    match ofSpelling? s with
    | some style => .ok style
    | none => .error (.notReturnStyle value)
  | _ => .error (.notReturnStyle value)

namespace Options

/-- The options `o` with the field `name` set to `value`, if it is a value of that field's type. -/
def set (o : Options) (name : OptionName) (value : Value) : Except ConfigError Options :=
  match name, value with
  | .returnStyle, value =>
    (ReturnStyle.ofValue value).map fun style => { o with returnStyle := style }
  | .singleReturnOnly, .bool b => .ok { o with singleReturnOnly := b }
  | .disallowPrototype, .bool b => .ok { o with disallowPrototype := b }
  | .classPropertiesAllowed, .bool b => .ok { o with classPropertiesAllowed := b }
  | name, value => .error (.notFlag name value)

/-- The options after one override. A null `value` leaves them as they are, whatever `name` is; a
    `name` that `ofSpelling?` does not know is refused. -/
def override (o : Options) (name : String) (value : Value) : Except ConfigError Options :=
  if value.isNull then .ok o
  else
    match OptionName.ofSpelling? name with
    | some name => o.set name value
    | none => .error (.unknownOption name)

/-- The options after all `overrides` in order, up to the first that `override` refuses. A table
    that has the `reservedName` is refused ahead of all else, even where its value is null. -/
def withOverrides (o : Options) (overrides : Table) : Except ConfigError Options :=
  if overrides.has reservedName then .error .reserved
  else overrides.foldlM (fun o entry => o.override entry.1 entry.2) o

/-- The entries of a settings table that set options, each under its `spelling`. A name keeps the
    place of the first key for it and takes the value of the last. -/
def overridesOf (settings : Table) : Table :=
  Table.ofEntries (settings.filterMap fun entry =>
    (OptionName.ofKey? entry.1).map fun name => (name.spelling, entry.2))

/-- No table of `overridesOf` has the `reservedName`. -/
theorem has_overridesOf_reservedName (settings : Table) :
    (overridesOf settings).has reservedName = false := by
  simp only [overridesOf, Table.has_ofEntries, List.any_eq_false, List.mem_filterMap]
  rintro entry ⟨setting, -, h⟩
  obtain ⟨name, -, rfl⟩ := Option.map_eq_some_iff.1 h
  simpa using name.spelling_ne_reservedName

/-- The options that a settings table asks for: the defaults `withOverrides` of `overridesOf
    settings`. -/
def ofSettings (settings : Table) : Except ConfigError Options :=
  ({} : Options).withOverrides (overridesOf settings)

end Options

end ArrowLint
