/-
  ArrowLint.Snapshot

  A project in one document. The linter has no parsers of its own and, in this form, no
  file system: whoever calls it hands over the files of the project, the tables that the
  settings files hold, and the trees of the texts that are met on the way. A text
  without a tree reads as an empty program with an error in it.

  The document is a table with the keys

    * `directory`: the working directory, an absolute path;
    * `files`: pairs of a path and a text, paths seen from the working directory;
    * `settings`: pairs of the text of a settings file and the table that it holds;
    * `trees`: tables of a `grammar`, a `text`, an `error` mark and the `nodes` of the
      tree, a row each: the number of the row above, the kind, one for a named node, the
      offsets of its start and its end, and the fields that hold it.
-/

import ArrowLint.CommandLine.Session
import ArrowLint.Syntax.Row

namespace ArrowLint

/-- A text with what a parser answers to it under `grammar`. -/
structure ParsedText where
  grammar : Grammar
  text : String
  parse : Parse

namespace Snapshot

/-! ## Values as what they should be -/

/-- The value of `key` in `v`, if `v` is a table that has it. -/
def member? (v : Value) (key : String) : Option Value :=
  v.table?.bind (Table.get? · key)

/-- The pairs of a text and a value that `v` lists. -/
def pairs? (v : Value) : Option (List (String × Value)) := do
  (← v.items?).mapM fun
    | .list [.text key, value] => some (key, value)
    | _ => none

/-! ## Trees -/

/-- The `Row` of a tree. Fields that the linter does not ask for are passed over. -/
def row? : Value → Option Row
  | .list (.int parent :: .text kind :: .int named :: .int start :: .int stop :: fields) =>
    some {
      parent := if parent < 0 then none else some parent.toNat
      kind := Kind.ofSpelling kind
      isNamed := named == 1
      start := start.toNat
      stop := stop.toNat
      fields := fields.filterMap fun f => f.text?.bind Field.ofSpelling? }
  | _ => none

/-- The `Grammar` whose `spelling` is `name`. -/
def grammar? (name : String) : Option Grammar :=
  [Grammar.typescript, .tsx].find? (·.spelling == name)

/-- The text that `v` describes, with its tree. -/
def parsedText? (v : Value) : Option ParsedText := do
  let grammar ← (member? v "grammar").bind Value.text? |>.bind grammar?
  let text ← (member? v "text").bind Value.text?
  let rows ← (← (member? v "nodes").bind Value.items?).mapM row?
  let tree ← Tree.ofRows? (Bytes.ofText text) rows
  let hasError :=
    match member? v "error" with
    | some (.bool b) => b
    | _ => false
  some { grammar := grammar, text := text, parse := { tree := tree, hasError := hasError } }

/-- An empty program with an error in it, for texts that a parser does not know. -/
def unknown : Parse :=
  { tree := .node {
      kind := .other "program", isNamed := true, start := 0, stop := 0, row := 0, column := 0
      text := some "", fields := [] } []
    hasError := true }

/-- The parser that answers to `known` texts with their parses, and with `unknown` else. -/
def parser (known : List ParsedText) : Parser := fun grammar text =>
  match known.find? fun p => p.grammar == grammar && p.text == text with
  | some p => p.parse
  | none => unknown

/-! ## The project -/

/-- The place that the absolute path `v` leads to. -/
def directory? (v : Value) : Option Location := do
  let path := Path.ofText (← v.text?)
  if path.isAbsolute then some (Location.resolve ⟨[]⟩ path) else none

/-- A store with `files` in and below `directory`. Documents of projects list no links. -/
def store (directory : Location) (files : List (String × String)) : FileStore :=
  files.foldl (fun s file =>
    s.put (Location.resolve directory (Path.ofText file.1)) (Bytes.ofText file.2))
    { files := [], directories := [directory] }

/-- The project that `v` describes, as surroundings and a store. -/
def ofValue? (v : Value) : Option (CommandLine.Environment × FileStore) := do
  let directory ← (member? v "directory").bind directory?
  let files ← (← (member? v "files").bind pairs?).mapM fun (path, content) =>
    content.text?.map (path, ·)
  let settings ← (← (member? v "settings").bind pairs?).mapM fun (text, document) =>
    document.table?.map (text, ·)
  let known ← (← (member? v "trees").bind Value.items?).mapM parsedText?
  some ({
    directory := directory
    parser := parser known
    settingsParser := fun text => List.lookup text settings }, store directory files)

/-- The files of `after` that `before` does not hold with the same contents. -/
def changes (before after : FileStore) : List (Location × Bytes) :=
  after.files.filter fun file => before.contents? file.1 != some file.2

end Snapshot

end ArrowLint
