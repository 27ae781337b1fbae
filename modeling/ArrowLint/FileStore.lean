/-
  ArrowLint.FileStore

  A file system: what each file holds, which directories there are, and which names lead
  elsewhere. A directory is there when it has been made or when something stands below it. A
  symbolic link is listed with the place where following it ends, and a further name of a file
  (a hard link) with the first of its names. Only the operations that the linter needs are
  given, and none of them makes a link or takes one away.

    * `FileStore.real` is the place that following all links ends at, and `FileStore.fileAt`
      the file that is found there, so two places share a file if this is the same for both;
    * `FileStore.find` follows a path, of which every name but the last must be a
      directory;
    * `FileStore.readText`, `FileStore.writeText` and `FileStore.backUp` read, write and
      copy whole files, through whatever links there are.
-/

import ArrowLint.Path
import ArrowLint.Text.Bytes
import ArrowLint.Text.Line
import ArrowLint.Text.Quoted

namespace ArrowLint

/-- What `links_end` asks of a `FileStore`, for a store that lists no links. -/
theorem FileStore.links_end_nil :
    ∀ link ∈ ([] : List (Location × Location)), ∀ other ∈ ([] : List (Location × Location)),
      ¬other.1.names <+: link.2.names :=
  fun _ hmem => absurd hmem List.not_mem_nil

/-- A file system: `files` with what they hold, `directories`, symbolic `links` and `aliases`. -/
structure FileStore where
  /-- Names of files, each with what its file holds, which is the same for all names of a file. -/
  files : List (Location × Bytes)
  directories : List Location
  /-- Symbolic links, each with the place where following it ends. -/
  links : List (Location × Location) := []
  /-- Further names of files (hard links), each with the first name of its file. -/
  aliases : List (Location × Location) := []
  /-- No link stands where following another one ends, or above that, so `real` need not go on. -/
  links_end : ∀ link ∈ links, ∀ other ∈ links, ¬other.1.names <+: link.2.names := by
    exact FileStore.links_end_nil

/-- Why nothing can be done with the file at `place`. -/
inductive FileError where
  | notFound (place : Location)
  | notDirectory (place : Location)
  | isDirectory (place : Location)
  deriving DecidableEq

/-- The wording of a `FileError`, with the path of its place in quotation marks. -/
def FileError.message : FileError → String
  | .notFound place => "[Errno 2] No such file or directory: " ++ Text.quoted place.toText
  | .notDirectory place => "[Errno 20] Not a directory: " ++ Text.quoted place.toText
  | .isDirectory place => "[Errno 21] Is a directory: " ++ Text.quoted place.toText

/-- Why `FileStore.readText` has no text to give. -/
inductive ReadError where
  | file (e : FileError)
  /-- The bytes of the file are no UTF-8. -/
  | notText
  deriving DecidableEq

/-- The wording of a `ReadError`. What a decoder has to say of the bytes is left out. -/
def ReadError.message : ReadError → String
  | .file e => e.message
  | .notText => "<decode error>"

/-- Whether `l` lies below `above`, and is not `above` itself. -/
def Location.isBelow (l above : Location) : Bool :=
  above.names.isPrefixOf l.names && above.names.length < l.names.length

namespace FileStore

/-! ## Links -/

/-- The place that `place` leads on to: that of its link in `s.links`, if it is one, else its
    own. -/
def throughLink (s : FileStore) (place : Location) : Location :=
  (s.links.lookup place).getD place

/-- The place where following all `links` on the way to `place` ends. -/
def real (s : FileStore) (place : Location) : Location :=
  place.names.foldl (fun above name => s.throughLink (above.child name)) ⟨[]⟩

/-- The first name of the file that has `name` for a name, by `aliases`. -/
def firstName (s : FileStore) (name : Location) : Location :=
  (s.aliases.lookup name).getD name

/-- The file that is found at `place`, by the first of its names. Two places share a file if
    `fileAt` is the same for both. -/
def fileAt (s : FileStore) (place : Location) : Location :=
  s.firstName (s.real place)

/-- The place that `name` leads to from `place`: upwards for `".."`, else downwards and on through a
    link. -/
def step (s : FileStore) (place : Location) (name : String) : Location :=
  if name == ".." then place.parent else s.throughLink (place.child name)

/-- The place that `path` is resolved to from `directory`, whether something is there or not. -/
def resolve (s : FileStore) (directory : Location) (path : Path) : Location :=
  path.names.foldl s.step (if path.isAbsolute then ⟨[]⟩ else directory)

/-! ## What is there -/

/-- What the file at `place` holds, through whatever links there are. -/
def contents? (s : FileStore) (place : Location) : Option Bytes :=
  s.files.lookup (s.real place)

/-- Whether a file is at `place`. -/
def isFile (s : FileStore) (place : Location) : Bool :=
  (s.contents? place).isSome

/-- The names that stand in directories: those of `files` and those of `links`. -/
def entries (s : FileStore) : List Location :=
  s.files.map (·.1) ++ s.links.map (·.1)

/-- Whether `place` is a directory, if it is `real`: the root, what has been made in `directories`,
    or what one of the `entries` stands below. -/
def hasDirectory (s : FileStore) (place : Location) : Bool :=
  place.names.isEmpty || s.directories.any (fun d => d == place || d.isBelow place)
    || s.entries.any (·.isBelow place)

/-- Whether a directory is at `place`, through whatever links there are. -/
def isDirectory (s : FileStore) (place : Location) : Bool :=
  s.hasDirectory (s.real place)

/-- Whether a file or a directory is at `place`. -/
def has (s : FileStore) (place : Location) : Bool :=
  s.isFile place || s.isDirectory place

/-- Follows names from `place` by `step`, each of them from a directory. -/
def follow (s : FileStore) (place : Location) : List String → Except FileError Location
  | [] => .ok place
  | name :: names =>
    if s.isDirectory place then s.follow (s.step place name) names
    else if s.isFile place then .error (.notDirectory place)
    else .error (.notFound place)

/-- The place that `path` leads to from `directory`, by `follow`. Whether something is there is
    another question. -/
def find (s : FileStore) (directory : Location) (path : Path) : Except FileError Location :=
  s.follow (if path.isAbsolute then ⟨[]⟩ else directory) path.names

/-- Whether `path` leads to something that the store `has`. -/
def pathExists (s : FileStore) (directory : Location) (path : Path) : Bool :=
  match s.find directory path with
  | .ok place => s.has place
  | .error _ => false

/-! ## Reading and writing -/

/-- What the file at `place` holds, or the `FileError` that says what stands in the way. -/
def readBytes (s : FileStore) (place : Location) : Except FileError Bytes :=
  match s.contents? place with
  | some data => .ok data
  | none => if s.isDirectory place then .error (.isDirectory place) else .error (.notFound place)

/-- The text of the file at `place` as UTF-8, with every line ended by a line feed
    (`Text.unifyNewlines`). -/
def readText (s : FileStore) (place : Location) : Except ReadError String :=
  match s.readBytes place with
  | .error e => .error (.file e)
  | .ok data =>
    match Bytes.text? data with
    | some text => .ok (String.ofList (Text.unifyNewlines text.toList))
    | none => .error .notText

/-- The store with `data` put into the file at `place`, under each name of that file; if there is
    none, a file is made at `s.real place`. -/
def put (s : FileStore) (place : Location) (data : Bytes) : FileStore :=
  let rewritten := s.files.map fun f =>
    if s.firstName f.1 == s.fileAt place then (f.1, data) else f
  { s with files := if s.isFile place then rewritten else rewritten ++ [(s.real place, data)] }

/-- Writes `data` to the file at `place`, by `put`, if there is a directory for it to stand in. -/
def writeBytes (s : FileStore) (place : Location) (data : Bytes) : Except FileError FileStore :=
  if s.isDirectory place then .error (.isDirectory place)
  else if s.hasDirectory (s.real place).parent then .ok (s.put place data)
  else .error (.notFound place)

/-- Writes `text` to `place` as UTF-8, with its line ends as they are. -/
def writeText (s : FileStore) (place : Location) (text : String) : Except FileError FileStore :=
  s.writeBytes place (Bytes.ofText text)

/-- The place of the backup of the file at `place`: next to it, with `.bak` after its name. -/
def backupPlace (place : Location) : Location :=
  place.parent.child (place.name ++ ".bak")

/-- The place that the copy of the file at `place` goes to: its `backupPlace`, or into the directory
    that stands there, under the file's own name. -/
def copyPlace (s : FileStore) (place : Location) : Location :=
  if s.isDirectory (backupPlace place) then (backupPlace place).child place.name
  else backupPlace place

/-- Copies what the file at `place` holds to its `copyPlace`. The copy fails if it would be the file
    itself, as it does without a directory to stand in. -/
def backUp (s : FileStore) (place : Location) : Except FileError FileStore :=
  match s.readBytes place with
  | .error e => .error e
  | .ok data =>
    if s.fileAt (s.copyPlace place) == s.fileAt place then .error (.notFound (s.copyPlace place))
    else s.writeBytes (s.copyPlace place) data

/-! ## Listing -/

/-- Whether a list of names comes no later than another one in the order that compares them name by
    name, a `<` at the first difference. -/
def namesPrecede : List String → List String → Bool
  | [], _ => true
  | _ :: _, [] => false
  | a :: as, b :: bs => a < b || (a == b && namesPrecede as bs)

/-- The `entries` below `place` that are files, in the order of their names. A link to a file is
    listed, and nothing below a link to a directory. -/
def filesBelow (s : FileStore) (place : Location) : List Location :=
  (s.entries.filter fun entry => entry.isBelow place && s.isFile entry).mergeSort fun a b =>
    namesPrecede a.names b.names

end FileStore

end ArrowLint
