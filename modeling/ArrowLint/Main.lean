/-
  ArrowLint.Main

  The program. It takes its arguments from the command line and the project from the
  standard input, writes what the linter writes, and brings the files that have changed
  to the disk.
-/

import ArrowLint.Snapshot
import ArrowLint.Value.JsonReader

namespace ArrowLint.CommandLine

/-- What is written for `Ending.usage`. -/
def usageText : String :=
  "Usage: prefer-arrow check|fix [SWITCHES] [PATHS]\n       prefer-arrow rules [ID]\n"

/-- What is written when a call breaks off with a `Failure`. -/
def Failure.text : Failure → String
  | .settings (.config e) => e.message
  | .settings .notText => "The settings file holds no text."
  | .settings .noSections => "The settings file has no sections for tools."
  | .registry _ => "The registry is not of the shape it should have."
  | .run (.node e) => e.message
  | .run (.splice e) => e.message
  | .run (.file e) => e.message

/-- Writes `files` to the disk, each at its place. -/
def bringOut (files : List (Location × Bytes)) : IO Unit :=
  files.forM fun (place, data) => IO.FS.writeBinFile place.toText data.toByteArray

/-- Writes what a call ends with to the two streams, and gives its exit code. -/
def Ending.write : Ending → IO UInt32
  | .usage => do
    IO.eprint usageText
    return UInt32.ofNat configCode
  | .exit e => do
    IO.print e.stdout
    IO.eprint e.stderr
    return UInt32.ofNat e.code
  | .failure e => do
    IO.eprint (e.text ++ "\n")
    return 1

/-- Calls the linter with `args` on the project that `document` describes, and brings its
    `Snapshot.changes` to the disk. -/
def callOn (document : String) (args : List String) : IO UInt32 := do
  match (Json.parse? document).bind Snapshot.ofValue? with
  | none =>
    IO.eprint "The standard input does not describe a project.\n"
    return UInt32.ofNat configCode
  | some (env, store) =>
    let (after, ending) := call env store args
    bringOut (Snapshot.changes store after)
    ending.write

end ArrowLint.CommandLine

/-- Calls the linter with `args` on the project that the standard input describes. -/
def main (args : List String) : IO UInt32 := do
  ArrowLint.CommandLine.callOn (← (← IO.getStdin).readToEnd) args
