/-
  ArrowLint.SettingsFile

  Where the settings of a project are kept: in a section of the nearest settings file
  from the working directory upwards. The document is of any shape; only what is asked
  for the section has to be a table.
-/

import ArrowLint.FileStore
import ArrowLint.Settings

namespace ArrowLint

/-- A parser for settings files; `none` for a text that is no document. -/
abbrev SettingsParser := String → Option Table

/-- Why `SettingsFile.load` has no settings to give. -/
inductive LoadError where
  | config (e : ConfigError)
  /-- The bytes of the file are no UTF-8. -/
  | notText
  /-- The value under `tool` is present and no table. -/
  | noSections

/-- A `table` of settings, and the records made while it was loaded. -/
structure LoadedSettings where
  table : Table
  log : List Record

namespace SettingsFile

/-- The `name` of settings files, `pyproject.toml`. -/
def name : String := "pyproject.toml"

/-- The names of the section below `tool`, in the order in which they are tried. -/
def sectionNames : List String :=
  ["prefer-arrow", "prefer_arrow"]

/-- The settings file for a place: the first `s.isFile` among the children called `name` of
    `start.upwards`. -/
def find? (s : FileStore) (start : Location) : Option Location :=
  (start.upwards.map (·.child name)).find? s.isFile

/-- The table under `tool` in a `document`, empty if there is no such key or its value is not
    `isPresent`; `noSections` for any other value. -/
def toolSections (document : Table) : Except LoadError Table :=
  match document.get? "tool" with
  | none => .ok []
  | some v =>
    if !v.isPresent then .ok []
    else
      match v with
      | .table sections => .ok sections
      | _ => .error .noSections

/-- The section of a `name`, if its value is a table. -/
def section? (sections : Table) (name : String) : Option (String × Table) :=
  ((sections.get? name).bind Value.table?).map (name, ·)

/-- The first of `sectionNames` that has a table in `toolSections document`, with that table. -/
def settingsIn (document : Table) : Except LoadError (Option (String × Table)) :=
  (toolSections document).map fun sections => sectionNames.findSome? (section? sections)

/-- The record that settings have been found at `place`, under `sectionName`. -/
def loadRecord (place : Location) (sectionName : String) : Record :=
  { level := .debug, origin := .settings
    message := "Loaded [tool." ++ sectionName ++ "] from " ++ place.toText }

/-- The record that the settings file at `place` could not be read. -/
def unreadRecord (place : Location) (e : FileError) : Record :=
  { level := .warning, origin := .settings
    message := "Could not read " ++ place.toText ++ ": " ++ e.message }

/-- Loads the settings for the place `start`. The `table` is empty without a file (`find?`), with a
    file that `readBytes` fails on (`unreadRecord`), and without a section in it (`settingsIn`). -/
def load (s : FileStore) (parser : SettingsParser) (start : Location) :
    Except LoadError LoadedSettings :=
  match find? s start with
  | none => .ok { table := [], log := [] }
  | some place =>
    match s.readBytes place with
    | .error e => .ok { table := [], log := [unreadRecord place e] }
    | .ok data =>
      match Bytes.text? data with
      | none => .error .notText
      | some text =>
        match parser text with
        | none => .error (.config (.malformed place.toText))
        | some document =>
          (settingsIn document).map fun
            | some (sectionName, table) =>
              { table := table, log := [loadRecord place sectionName] }
            | none => { table := [], log := [] }

end SettingsFile

end ArrowLint
