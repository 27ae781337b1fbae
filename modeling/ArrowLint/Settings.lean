/-
  ArrowLint.Settings

  The settings of a project: the options of the rule, and which files it is for. They
  come from a table of the settings file; a key that means nothing is put on record and
  passed over, a bad value of an option is an error.
-/

import ArrowLint.Log
import ArrowLint.Options
import ArrowLint.Text.Search

namespace ArrowLint

/-- The settings of a project: the rule's `options`, and which files are looked at. -/
structure Settings where
  options : Options
  /-- A path that contains one of these texts is not looked at. -/
  exclude : List String
  /-- The suffixes of the files that are looked at, each with its point (`dotted`). -/
  extensions : List String

namespace Settings

/-- The `extensions` of a project that names none. -/
def defaultExtensions : List String :=
  [".js", ".jsx", ".mjs", ".cjs", ".ts", ".tsx", ".mts", ".cts"]

/-- The texts among `items`; all else is left out. -/
def textsOf (items : List Value) : List String :=
  items.filterMap fun
    | .text s => some s
    | _ => none

/-- A suffix with its point, which is added if `s` has none. -/
def dotted (s : String) : String :=
  if Text.startsWith s "." then s else "." ++ s

/-- The value of `exclude` in settings: the `textsOf` the list under that key, `[]` if there is no
    list. -/
def excludeOf (t : Table) : List String :=
  match t.get? "exclude" with
  | some (.list items) => textsOf items
  | _ => []

/-- The value of `extensions` in settings: the `textsOf` the list under that key, each `dotted`, and
    `defaultExtensions` if there is no list or an empty one. -/
def extensionsOf (t : Table) : List String :=
  match t.get? "extensions" with
  | some (.list (item :: items)) => (textsOf (item :: items)).map dotted
  | _ => defaultExtensions

/-- Whether a `key` means something: an option by `OptionName.ofKey?`, `exclude` or `extensions`. -/
def isKnown (key : String) : Bool :=
  (OptionName.ofKey? key).isSome || key == "exclude" || key == "extensions"

/-- What is put on record about a table: a warning for each key that is not `isKnown`. -/
def warnings (t : Table) : List Record :=
  (t.filter (!isKnown ·.1)).map fun entry =>
    { level := .warning, origin := .settings
      message := "Configuration Warning: unknown [tool.prefer-arrow] key '" ++ entry.1
        ++ "' ignored." }

/-- The settings that a table asks for; only `Options.ofSettings` can refuse it. -/
def ofTable (t : Table) : Except ConfigError Settings :=
  (Options.ofSettings t).map fun options =>
    { options := options, exclude := excludeOf t, extensions := extensionsOf t }

end Settings

end ArrowLint
