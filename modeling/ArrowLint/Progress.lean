/-
  ArrowLint.Progress

  What a run tells its user while it works. Each notice is shown on the console, debugging
  notices apart, and each is put on record under the name of the project.
-/

import ArrowLint.Log
import ArrowLint.Text.Console
import ArrowLint.Text.LowerCase

namespace ArrowLint

/-- Something a run tells its user, as `Announcer.console` shows it. -/
inductive Notice where
  /-- The greeting at the start of a run, `Announcer.greeting`. -/
  | handshake
  | step (message : String)
  | warning (message : String)
  | error (message : String)
  | debug (message : String)
  deriving DecidableEq

/-- What happens in a run, in the eyes of its user: a `Notice`, or a `Record` of some part. -/
inductive Event where
  | notice (n : Notice)
  | record (r : Record)
  deriving DecidableEq

/-- The picture ahead of a `handshake`, in a colour of its own. -/
def banner : String :=
  "\x1b[36m" ++ "\n"
    ++ "   ___           __                        __\n"
    ++ "  / _ \\_______ _/ _/__ ____  ___ _______  / /    [ v1 ]\n"
    ++ " / ___/ __/ -_) _/ -_) __/ / _ `/ __/ __/ /_/    "
    ++ "function () \x7b\x7d  =>  () => \x7b\x7d\n"
    ++ "/_/  /_/  \\__/_/ \\__/_/    \\_,_/_/ /_/   (_)\n"
    ++ "\x1b[0m"

/-- Who speaks to the user: the `name` of a project and its `greeting`. -/
structure Announcer where
  name : String
  greeting : String

namespace Announcer

/-- The `Origin` under which notices are put on record, the `name` in lower case. -/
def origin (a : Announcer) : Origin :=
  .progress (Text.lower a.name)

/-- The console's line for a `message` with a `word` ahead of it; mark-up in `message` is read. -/
def consoleLine (word message : String) : String :=
  Text.onConsole (word ++ " " ++ Text.throughMarkup message) ++ "\n"

/-- What the console shows of a `Notice`. -/
def console (a : Announcer) : Notice → String
  | .handshake => banner ++ "\n" ++ consoleLine a.name a.greeting
  | .step message => consoleLine ">" message
  | .warning message => consoleLine "WARNING" message
  | .error message => consoleLine "ERROR" message
  | .debug _ => ""

/-- The `Record` of a `Notice`, at a level of its own. -/
def record (a : Announcer) : Notice → Record
  | .handshake => ⟨.info, a.origin, a.name ++ ": " ++ a.greeting⟩
  | .step message => ⟨.info, a.origin, message⟩
  | .warning message => ⟨.warning, a.origin, message⟩
  | .error message => ⟨.error, a.origin, message⟩
  | .debug message => ⟨.debug, a.origin, message⟩

/-- What the user sees of an event: what is shown of a notice, by `tell`, and the record if it
    matters enough. -/
def transcript (a : Announcer) (tell : Notice → String) (threshold : Level) (e : Event) :
    String :=
  let recorded := fun (r : Record) => if r.level.reaches threshold then r.line ++ "\n" else ""
  match e with
  | .notice n => tell n ++ recorded (a.record n)
  | .record r => recorded r

end Announcer

end ArrowLint
