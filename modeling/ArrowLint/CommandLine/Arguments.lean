/-
  ArrowLint.CommandLine.Arguments

  Reading the arguments of the command line: a command, then switches and other
  arguments in any order. A switch with a value takes the next argument, whatever it is,
  or what follows its equals sign; two dashes alone end the switches; of switches that
  contradict each other the last counts.
-/

import ArrowLint.Text.Search

namespace ArrowLint.CommandLine

/-- The commands of the linter, by the names that `Command.ofName?` reads. -/
inductive Command where
  | check
  | fix
  | rules
  deriving DecidableEq

/-- The `Command` of a name, as written. -/
def Command.ofName? : String → Option Command
  | "check" => some .check
  | "fix" => some .fix
  | "rules" => some .rules
  | _ => none

/-- One switch of `check` or `fix` as it has been given, with its value. -/
inductive Switch where
  | singleReturnOnly (on : Bool)
  | disallowPrototype (on : Bool)
  | classPropertiesAllowed (on : Bool)
  | returnStyle (value : String)
  | format (value : String)
  | verbose
  | noBackup
  | dryRun
  deriving DecidableEq

namespace Switch

/-- The `Switch` of a `name` that takes no value, for a command that has it. -/
def plain? (c : Command) (name : String) : Option Switch :=
  match c, name with
  | .rules, _ => none
  | _, "--single-return-only" => some (.singleReturnOnly true)
  | _, "--no-single-return-only" => some (.singleReturnOnly false)
  | _, "--disallow-prototype" => some (.disallowPrototype true)
  | _, "--no-disallow-prototype" => some (.disallowPrototype false)
  | _, "--class-properties-allowed" => some (.classPropertiesAllowed true)
  | _, "--no-class-properties-allowed" => some (.classPropertiesAllowed false)
  | _, "--verbose" => some .verbose
  | .fix, "--no-backup" => some .noBackup
  | .fix, "--dry-run" => some .dryRun
  | _, _ => none

/-- The switch of a `name` that takes a value, as a function of the value. -/
def valued? (c : Command) (name : String) : Option (String → Switch) :=
  match c, name with
  | .rules, _ => none
  | _, "--return-style" => some .returnStyle
  | _, "--format" => some .format
  | _, _ => none

/-- The switches that a single dash and `letters` stand for, one a letter; only `v` is known. -/
def letters? (c : Command) (letters : List Char) : Option (List Switch) :=
  letters.mapM fun letter => if letter == 'v' && c != .rules then some .verbose else none

end Switch

/-- What one argument is, where switches are still read. -/
inductive Argument where
  | plain (value : String)
  | switches (given : List Switch)
  /-- A switch that takes the next argument for its value, which `make` waits for. -/
  | awaiting (make : String → Switch)
  | unknown

/-- What the argument `s` is; `switches` have one dash or two, and a value may follow after `=`. -/
def Argument.ofText (c : Command) (s : String) : Argument :=
  match s.toList with
  | '-' :: '-' :: _ =>
    let cs := s.toList
    let name := String.ofList (cs.takeWhile (· != '='))
    match cs.dropWhile (· != '=') with
    -- a value after the equals sign, which may be empty
    | _ :: value =>
      match Switch.valued? c name with
      | some make => .switches [make (String.ofList value)]
      | none => .unknown
    | [] =>
      match Switch.plain? c name, Switch.valued? c name with
      | some given, _ => .switches [given]
      | none, some make => .awaiting make
      | none, none => .unknown
  | '-' :: letter :: letters =>
    match Switch.letters? c (letter :: letters) with
    | some given => .switches given
    | none => .unknown
  -- a dash alone is no switch
  | _ => .plain s

/-- The switches and the other arguments among what follows a command; after `--` none is a switch.
    It is `none` for a switch that is not known or lacks its value. -/
def scan (c : Command) : List String → Option (List Switch × List String)
  | [] => some ([], [])
  | s :: rest =>
    if s == "--" then some ([], rest)
    else
      match Argument.ofText c s with
      | .plain value => (scan c rest).map fun (given, others) => (given, value :: others)
      | .switches now => (scan c rest).map fun (given, others) => (now ++ given, others)
      | .awaiting make =>
        match rest with
        | value :: rest => (scan c rest).map fun (given, others) => (make value :: given, others)
        | [] => none
      | .unknown => none

/-- How a run over files is wanted; a field that is `none` is left to the settings. -/
structure Wishes where
  singleReturnOnly : Option Bool := none
  disallowPrototype : Option Bool := none
  returnStyle : Option String := none
  classPropertiesAllowed : Option Bool := none
  format : String := "text"
  verbose : Bool := false
  noBackup : Bool := false
  dryRun : Bool := false

namespace Wishes

/-- The `Wishes` after one more `Switch`, which takes the place of an earlier one of its kind. -/
def add (w : Wishes) : Switch → Wishes
  | .singleReturnOnly on => { w with singleReturnOnly := some on }
  | .disallowPrototype on => { w with disallowPrototype := some on }
  | .classPropertiesAllowed on => { w with classPropertiesAllowed := some on }
  | .returnStyle value => { w with returnStyle := some value }
  | .format value => { w with format := value }
  | .verbose => { w with verbose := true }
  | .noBackup => { w with noBackup := true }
  | .dryRun => { w with dryRun := true }

/-- The `Wishes` that switches express, `add`ed in order. -/
def ofSwitches (given : List Switch) : Wishes :=
  given.foldl add {}

end Wishes

/-- What the command line asks for. -/
inductive Invocation where
  | check (wishes : Wishes) (paths : List String)
  | fix (wishes : Wishes) (paths : List String)
  | rules (id : Option String)

/-- The `Invocation` of a command with the switches `given` and the arguments `others`; `none` if
    `rules` has more than one. -/
def Invocation.ofScan (c : Command) (given : List Switch) (others : List String) :
    Option Invocation :=
  match c, others with
  | .check, paths => some (.check (Wishes.ofSwitches given) paths)
  | .fix, paths => some (.fix (Wishes.ofSwitches given) paths)
  | .rules, [] => some (.rules none)
  | .rules, [id] => some (.rules (some id))
  | .rules, _ => none

/-- The `Invocation` of a command's name and what follows it. -/
def Invocation.ofCommand (args : List String) : Option Invocation :=
  match args with
  | [] => none
  | name :: rest => do
    let c ← Command.ofName? name
    let (given, others) ← scan c rest
    ofScan c given others

/-- The `Invocation` that arguments ask for; `none` if they are not well formed. A `--` may stand
    ahead of the command. -/
def Invocation.ofArguments (args : List String) : Option Invocation :=
  match args with
  | "--" :: rest => ofCommand rest
  | args => ofCommand args

end ArrowLint.CommandLine
