/-
  ArrowLint.Collect

  Which files a run looks at. Every path given stands for itself or, if it is a
  directory, for the sources below it; directories that hold the work of others or of
  tools are left out, and so is every path in which a fragment from the settings occurs.
-/

import ArrowLint.FileStore
import ArrowLint.Text.LowerCase

namespace ArrowLint

namespace Collect

/-- The names of directories that are not searched for sources, whatever stands in them. -/
def skippedDirectories : List String :=
  ["node_modules", ".git", "dist", "build"]

/-- How the names of files end that only declare types: `.d.ts`, in this case of letters only. -/
def declarationSuffix : String := ".d.ts"

/-- Whether `name` is that of a source: it does not end in `declarationSuffix`, and its `suffixOf`,
    in small letters, is one of `extensions`. -/
def isSourceName (extensions : List String) (name : String) : Bool :=
  !Text.endsWith name declarationSuffix && extensions.contains (Text.lower (suffixOf name))

/-- Whether a file is left out, by the `names` that lead to it from where the search began: one of
    `skippedDirectories` is on the way, or one of `fragments` occurs in their path. -/
def isExcluded (fragments : List String) (names : List String) : Bool :=
  names.dropLast.any skippedDirectories.contains
    || fragments.any (Text.contains ("/".intercalate names))

/-- The sources at `place`: those of its `filesBelow` if it is a directory, else `place` itself. -/
def sourcesAt (s : FileStore) (place : Location) (extensions fragments : List String) :
    List Location :=
  let isDirectory := s.isDirectory place
  -- a file given by its own path is judged by its name alone
  let base := if isDirectory then place else place.parent
  let candidates := if isDirectory then s.filesBelow place else [place]
  candidates.filter fun file =>
    isSourceName extensions file.name
      && !isExcluded fragments (file.names.drop base.names.length)

/-- The `places` in the order of their texts, each once. -/
def sorted (places : List Location) : List Location :=
  places.eraseDups.mergeSort fun a b => a.toText ≤ b.toText

/-- The sources that `paths` stand for from `directory`, in order: those at the places that the
    existing ones are resolved to (`sourcesAt`). -/
def sources (s : FileStore) (directory : Location) (extensions fragments : List String)
    (paths : List String) : List Location :=
  sorted ((paths.filter fun p => s.pathExists directory (Path.ofText p)).flatMap fun p =>
    sourcesAt s (s.resolve directory (Path.ofText p)) extensions fragments)

/-- Those of `paths` that lead nowhere from `directory`. -/
def missing (s : FileStore) (directory : Location) (paths : List String) : List String :=
  paths.filter fun p => !s.pathExists directory (Path.ofText p)

end Collect

end ArrowLint
