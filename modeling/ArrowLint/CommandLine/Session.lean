/-
  ArrowLint.CommandLine.Session

  What a call of the linter does: it loads the settings, reads the arguments, runs the
  command and ends with a code and with what it has written. Code zero stands for clean,
  one for something left to report, two for a call that cannot be followed.
-/

import ArrowLint.CommandLine.Arguments
import ArrowLint.Registry.Packaged
import ArrowLint.Report.Document
import ArrowLint.Report.Plain
import ArrowLint.Run
import ArrowLint.SettingsFile

namespace ArrowLint.CommandLine

/-- The `Announcer` of the linter's own notices. -/
def announcer : Announcer :=
  { name := "PREFER-ARROW", greeting := "Arrow conversion online" }

/-- What stands between the linter and its user: how arguments are read (`read`), and how tables,
    notices and lines of text are shown (`draw`, `tell`, `say`). -/
structure Console where
  /-- The `Invocation` that arguments ask for; `none` if they are not well formed. -/
  read : List String → Option Invocation := Invocation.ofArguments
  draw : Boxed → String := Boxed.render
  tell : Notice → String := announcer.console
  say : String → String := fun line => line ++ "\n"

/-- What the linter finds around it: the working `directory`, the parsers of sources and settings,
    the registry and the `console`. -/
structure Environment where
  /-- The working directory, where `SettingsFile.find?` starts. -/
  directory : Location
  parser : Parser
  settingsParser : SettingsParser
  registry : Table := Registry.packaged
  console : Console := {}

/-- The end of a call: its exit `code` and what it writes to the two streams. -/
structure Exit where
  code : Nat
  stdout : String
  stderr : String
  deriving DecidableEq

/-- The `code` of a call that leaves nothing to report. -/
def cleanCode : Nat := 0

/-- The `code` of a call that leaves something to report. -/
def violationCode : Nat := 1

/-- The `code` of a call that cannot be followed. -/
def configCode : Nat := 2

/-- What a call breaks off with, by the part that fails. -/
inductive Failure where
  | settings (e : LoadError)
  | registry (e : RegistryError)
  | run (e : RunError)

/-- How a call ends; `Ending.code?` is its exit code, if it has one. -/
inductive Ending where
  /-- The arguments are not well formed, so `Console.read` gives nothing. -/
  | usage
  | exit (e : Exit)
  | failure (e : Failure)

/-- What is shown of a `log` before it is settled which records are: those that reach `warning`, by
    their message alone. -/
def early (log : List Record) : String :=
  String.join ((log.filter (·.level.reaches .warning)).map (·.message ++ "\n"))

/-- What is shown of the `events` of a run: notices by `console.tell`, records from `warning` on,
    and from `debug` on if `verbose`. -/
def transcript (console : Console) (verbose : Bool) (events : List Event) : String :=
  String.join (events.map
    (announcer.transcript console.tell (if verbose then .debug else .warning)))

/-- The paths that a run is over: those given, else `src` if `directory` has it, else `directory`
    itself. -/
def targets (s : FileStore) (directory : Location) (paths : List String) : List String :=
  if !paths.isEmpty then paths.map fun p => (Path.ofText p).toText
  else if s.isDirectory (directory.child "src") then ["src"]
  else ["."]

/-! ## Checking and fixing -/

/-- What the switches in `w` set over the settings: null for each option without one. -/
def Wishes.overrides (w : Wishes) : Table :=
  let flag := fun (b : Option Bool) => (b.map Value.bool).getD .null
  [(OptionName.singleReturnOnly.spelling, flag w.singleReturnOnly),
    (OptionName.disallowPrototype.spelling, flag w.disallowPrototype),
    (OptionName.returnStyle.spelling, (w.returnStyle.map Value.text).getD .null),
    (OptionName.classPropertiesAllowed.spelling, flag w.classPropertiesAllowed)]

/-- What is told when settings are refused with `e`. -/
def configNotice (e : ConfigError) : Notice :=
  .error ("Configuration error: " ++ e.message)

/-- What is told when `format` is neither `text` nor `json`. -/
def formatNotice (format : String) : Notice :=
  .error ("Unknown --format '" ++ format ++ "'; use text or json.")

/-- The start of a run over files: what is told ahead of it, and the `Workspace` for it, or nothing
    where the format is unknown or `w.overrides` are refused. -/
def prepare (env : Environment) (settings : Settings) (w : Wishes) :
    List Event × Option Workspace :=
  if w.format != "text" && w.format != "json" then ([.notice (formatNotice w.format)], none)
  else
    let greeting : List Event := if w.format == "text" then [.notice .handshake] else []
    match settings.options.withOverrides w.overrides with
    | .error e => (greeting ++ [.notice (configNotice e)], none)
    | .ok options =>
      let texts := MessageTexts.withTexts (Registry.texts env.registry)
      (greeting, some {
        linter := { rule := { options := options, texts := texts }, parser := env.parser }
        settings := settings
        directory := env.directory })

/-- The `Ending` of a call that cannot be followed: `configCode`, with what has been told on the
    error stream. -/
def refusal (console : Console) (w : Wishes) (events : List Event) : Ending :=
  .exit { code := configCode, stdout := "", stderr := transcript console w.verbose events }

/-- Checks files by `Workspace.check`. The code is `violationCode` if anything is reported. -/
def check (env : Environment) (settings : Settings) (s : FileStore) (w : Wishes)
    (paths : List String) : Ending :=
  match prepare env settings w with
  | (events, none) => refusal env.console w events
  | (events, some workspace) =>
    match workspace.check s (targets s env.directory paths) with
    | .error e => .failure (.run (.node e))
    | .ok run =>
      .exit {
        code := if run.summary.hasViolations then violationCode else cleanCode
        stdout :=
          if w.format == "json" then run.summary.document else run.summary.plain env.console.draw
        stderr := transcript env.console w.verbose (events ++ run.events) }

/-- The `Workspace.FixMode` that `w` asks for. -/
def Wishes.fixMode (w : Wishes) : Workspace.FixMode :=
  { backups := !w.noBackup, dryRun := w.dryRun }

/-- Fixes files by `Workspace.fix`. The code is `violationCode` if something remains, or if a dry
    run has something to change. -/
def fix (env : Environment) (settings : Settings) (s : FileStore) (w : Wishes)
    (paths : List String) : FileStore × Ending :=
  match prepare env settings w with
  | (events, none) => (s, refusal env.console w events)
  | (events, some workspace) =>
    let run := workspace.fix w.fixMode s (targets s env.directory paths)
    match run.summary with
    | .error e => (run.store, .failure (.run e))
    | .ok summary =>
      let isPending := 0 < summary.remaining || (w.dryRun && 0 < summary.filesChanged)
      (run.store, .exit {
        code := if isPending then violationCode else cleanCode
        stdout := if w.format == "json" then summary.document else summary.plain env.console.draw
        stderr := transcript env.console w.verbose (events ++ run.events) })

/-! ## The rules -/

/-- Lists the messages of `registry`, in a table drawn by `console.draw`. -/
def listRules (console : Console) (registry : Table) : Ending :=
  match Registry.rows registry with
  | .error e => .failure (.registry e)
  | .ok rows =>
    .exit { code := cleanCode, stdout := console.draw (RegistryRow.boxed rows), stderr := "" }

/-- Explains the message `id`, by its name and its `Registry.advice`. Which records are shown is
    never settled here, so a refusal is shown twice: by `console.tell`, and as a record by its
    message alone. -/
def explainRule (console : Console) (registry : Table) (id : String) : Ending :=
  if (Registry.lookup? registry id).isNone then
    let notice := Notice.error ("Unknown message '" ++ id ++ "'.")
    .exit {
      code := configCode, stdout := ""
      stderr := console.tell notice ++ early [announcer.record notice] }
  else
    match Registry.advice registry id with
    | .error e => .failure (.registry e)
    | .ok advice =>
      .exit {
        code := cleanCode, stderr := ""
        stdout := console.say (Registry.displayName registry id) ++ console.say advice }

/-- Lists the messages of `registry` by `listRules`, or explains the one that `id` names. -/
def rules (console : Console) (registry : Table) (id : Option String) : Ending :=
  match id with
  | some id => if id == "" then listRules console registry else explainRule console registry id
  | none => listRules console registry

/-! ## The call -/

/-- The same `Ending`, with `text` ahead of what is written to the error stream. -/
def Ending.after (text : String) : Ending → Ending
  | .exit e => .exit { e with stderr := text ++ e.stderr }
  | ending => ending

/-- The `Ending` of a call whose settings are refused with `e`. -/
def configEnding (console : Console) (e : ConfigError) : Ending :=
  .exit { code := configCode, stdout := "", stderr := console.tell (configNotice e) }

/-- Does what `args` ask for, as `env.console` reads them, under `settings`. -/
def invoke (env : Environment) (settings : Settings) (s : FileStore) (args : List String) :
    FileStore × Ending :=
  match env.console.read args with
  | none => (s, .usage)
  | some (.check w paths) => (s, check env settings s w paths)
  | some (.fix w paths) => fix env settings s w paths
  | some (.rules id) => (s, rules env.console env.registry id)

/-- Calls the linter with `args`. The settings come first: a call whose settings are refused does
    not look at `args`, and one whose `SettingsFile.load` fails otherwise breaks off. -/
def call (env : Environment) (s : FileStore) (args : List String) : FileStore × Ending :=
  match SettingsFile.load s env.settingsParser env.directory with
  | .error (.config e) => (s, configEnding env.console e)
  | .error e => (s, .failure (.settings e))
  | .ok loaded =>
    let warned := early (loaded.log ++ Settings.warnings loaded.table)
    match Settings.ofTable loaded.table with
    | .error e => (s, (configEnding env.console e).after warned)
    | .ok settings =>
      let (s, ending) := invoke env settings s args
      (s, ending.after warned)

end ArrowLint.CommandLine
