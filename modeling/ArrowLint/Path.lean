/-
  ArrowLint.Path

  Paths of files. A path as it is written is a root, if it has one, and the names
  between its slashes; names that lead nowhere are left out. A path that starts at the
  root and has been freed of every step upwards is a `Location`.
-/

import ArrowLint.Text.Search

namespace ArrowLint

/-- The suffix of `name`: from its last point on, unless that is the first or the last of its
    characters. -/
def suffixOf (name : String) : String :=
  let cs := name.toList
  let ending := cs.reverse.takeWhile (· != '.')
  if ending.isEmpty || cs.length ≤ ending.length + 1 then ""
  else String.ofList ('.' :: ending.reverse)

/-- A path as it is written, absolute if it has a `root`. -/
structure Path where
  /-- The slashes at its start: none, one, or just two. -/
  root : String
  names : List String
  deriving DecidableEq

namespace Path

/-- The root of a path: `/`, or `//` for just two slashes at its start, or nothing. -/
def rootOf : List Char → String
  | '/' :: '/' :: '/' :: _ => "/"
  | '/' :: '/' :: _ => "//"
  | '/' :: _ => "/"
  | _ => ""

/-- The path that `s` writes. Empty names and single points lead nowhere and are left out. -/
def ofText (s : String) : Path :=
  { root := rootOf s.toList
    names := ((Text.splitAt '/' s.toList).map String.ofList).filter fun name =>
      name != "" && name != "." }

/-- The text of `p`; a path that leads nowhere is `"."`. -/
def toText (p : Path) : String :=
  if p.root == "" && p.names.isEmpty then "." else p.root ++ "/".intercalate p.names

/-- The `suffixOf` the last name of `p`. -/
def suffix (p : Path) : String :=
  suffixOf (p.names.getLast?.getD "")

/-- Whether `p` starts at the root. -/
def isAbsolute (p : Path) : Bool :=
  p.root != ""

end Path

/-- A place in the file system: the `names` that lead to it from the root. -/
structure Location where
  names : List String
  deriving DecidableEq

namespace Location

/-- The absolute path of `l`. -/
def toText (l : Location) : String :=
  "/" ++ "/".intercalate l.names

/-- The last of the names of `l`; the root has the empty one. -/
def name (l : Location) : String :=
  l.names.getLast?.getD ""

/-- The place directly above `l`; the root is above itself. -/
def parent (l : Location) : Location :=
  ⟨l.names.dropLast⟩

/-- The place of `name` directly below `l`. -/
def child (l : Location) (name : String) : Location :=
  ⟨l.names ++ [name]⟩

/-- The place that `name` leads to from `l`, upwards for `".."`, else downwards. -/
def step (l : Location) (name : String) : Location :=
  if name == ".." then l.parent else l.child name

/-- The place that `p` leads to from `directory` by its names alone, without regard to links. -/
def resolve (directory : Location) (p : Path) : Location :=
  p.names.foldl step (if p.isAbsolute then ⟨[]⟩ else directory)

/-- The names that lead from `base` to `l`, if `l` is `base` or below it. -/
def relativeTo? (l base : Location) : Option (List String) :=
  if base.names.isPrefixOf l.names then some (l.names.drop base.names.length) else none

/-- The place `l` and all those above it, the nearest first. -/
def upwards (l : Location) : List Location :=
  (List.range (l.names.length + 1)).reverse.map fun n => ⟨l.names.take n⟩

end Location

end ArrowLint
