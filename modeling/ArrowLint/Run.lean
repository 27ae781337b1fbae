/-
  ArrowLint.Run

  Runs over the files of a project. Checking lints every source and changes nothing.
  Fixing deals with one file after the other: what is to become of a file is planned from
  what the store holds (`Workspace.planFix`), and the plan is then carried out change by
  change, so that the changes a run has made, in order, are part of its result.
-/

import ArrowLint.Collect
import ArrowLint.Fix.Source
import ArrowLint.Progress
import ArrowLint.Report.Summary
import ArrowLint.Settings

namespace ArrowLint

/-- A project at work: its `directory`, its `settings`, and the `linter` that looks at its files. -/
structure Workspace where
  linter : Linter
  settings : Settings
  /-- The working directory, against which relative `paths` are read. -/
  directory : Location

/-- What a run may do to the store: back `file` up, or `write` it. -/
inductive Change where
  | backUp (file : Location)
  | write (file : Location) (text : String)
  deriving DecidableEq

/-- The store after a `Change`, made by `backUp` or `writeText`. -/
def FileStore.apply (s : FileStore) : Change → Except FileError FileStore
  | .backUp file => s.backUp file
  | .write file text => s.writeText file text

/-- Why a run ends early: a `node` is no text or has no body, a `splice` fails, or a `file` cannot
    be written. -/
inductive RunError where
  | node (e : NodeError)
  | splice (e : SpliceError)
  | file (e : FileError)
  deriving DecidableEq

/-- The `RunError` of a source that cannot be fixed. -/
def RunError.ofFix : FixError → RunError
  | .node e => .node e
  | .splice e => .splice e

namespace Workspace

/-! ## The files of a run -/

/-- The files that `paths` stand for in `w`, in order, by `Collect.sources`. -/
def collect (w : Workspace) (s : FileStore) (paths : List String) : List Location :=
  Collect.sources s w.directory w.settings.extensions w.settings.exclude paths

/-- What is told about those of `paths` that lead nowhere. -/
def missingNotices (w : Workspace) (s : FileStore) (paths : List String) : List Event :=
  (Collect.missing s w.directory paths).map fun p => .notice (.error ("Path not found: " ++ p))

/-- What is told about `file` when reading it ends in `e`. -/
def skipNotice (file : Location) (e : ReadError) : Event :=
  .notice (.error ("file=" ++ file.toText ++ " status=skipped reason=" ++ e.message))

/-! ## Checking -/

/-- The `results` found so far, the files that could not be read, and what has been told. -/
structure Checked where
  results : List LintResult
  failed : List Location
  events : List Event

/-- Checks files one after the other: those that `readText` cannot read are listed in `failed`, and
    all others are linted. -/
def checkFiles (w : Workspace) (s : FileStore) : List Location → Except NodeError Checked
  | [] => .ok { results := [], failed := [], events := [] }
  | file :: files =>
    match s.readText file with
    | .error e =>
      (w.checkFiles s files).map fun rest =>
        { rest with failed := file :: rest.failed, events := skipNotice file e :: rest.events }
    | .ok source =>
      match w.linter.lint source file.toText with
      | .error e => .error e
      | .ok report =>
        let notice := Event.notice (.debug ("file=" ++ file.toText ++ " violations="
          ++ toString report.result.violations.length))
        (w.checkFiles s files).map fun rest =>
          { rest with
            results := report.result :: rest.results
            events := report.log.map .record ++ notice :: rest.events }

/-- The `summary` of checking, and what was told meanwhile. -/
structure CheckRun where
  summary : CheckSummary
  events : List Event

/-- Checks the files that `paths` stand for, by `checkFiles`. -/
def check (w : Workspace) (s : FileStore) (paths : List String) : Except NodeError CheckRun :=
  let files := w.collect s paths
  let start := Event.notice (.step ("Checking " ++ toString files.length
    ++ " file(s) for arrow-convertible functions"))
  (w.checkFiles s files).map fun checked =>
    { summary := { results := checked.results, failed := checked.failed.map (·.toText) }
      events := w.missingNotices s paths ++ start :: checked.events }

/-! ## Fixing -/

/-- How files are fixed: with `backups` or without, in a `dryRun` or not, and in how many passes. -/
structure FixMode where
  /-- Whether a `backUp` goes ahead of each `write`. -/
  backups : Bool := true
  /-- Whether files are left as they are, so that no `Change` is made. -/
  dryRun : Bool := false
  /-- How many passes `Linter.fixSource` may take on a file. -/
  limit : Int := Linter.defaultLimit

/-- The name of `file` in what a run tells: seen from the working directory if `file` is below, else
    its whole path. -/
def shortName (w : Workspace) (file : Location) : String :=
  match file.relativeTo? w.directory with
  | some [] => "."
  | some names => "/".intercalate names
  | none => file.toText

/-- What is to become of a file: its `outcome` (`none` if it cannot be read), the `events` told
    meanwhile, and the `changes` to make. -/
structure Plan where
  outcome : Option FixOutcome
  events : List Event
  changes : List Change

/-- What is told about a `file` whose outcome `isChanged`: the counts, and a warning if violations
    remain. -/
def changeNotices (w : Workspace) (file : Location) (o : FixOutcome) : List Event :=
  .notice (.step ("file=" ++ w.shortName file ++ " fixes=" ++ toString o.applied ++ " passes="
    ++ toString o.passes))
    :: if o.remaining.isEmpty then []
      else [.notice (.warning ("file=" ++ w.shortName file ++ " remaining="
        ++ toString o.remaining.length ++ " after " ++ toString o.passes ++ " pass(es)"))]

/-- The changes that bring `o.fixed` to its `file`: a `backUp` ahead of the `write` where
    `mode.backups` is set, none in a dry run. -/
def changesFor (mode : FixMode) (file : Location) (o : FixOutcome) : List Change :=
  if mode.dryRun then []
  else if mode.backups then [.backUp file, .write file o.fixed]
  else [.write file o.fixed]

/-- The `Plan` for one `file`: what `Linter.fixSource` makes of its text, or a skip notice if
    `readText` fails. -/
def planFix (w : Workspace) (mode : FixMode) (s : FileStore) (file : Location) :
    Except FixError Plan :=
  match s.readText file with
  | .error e => .ok { outcome := none, events := [skipNotice file e], changes := [] }
  | .ok source =>
    (w.linter.fixSource source file.toText mode.limit).map fun report =>
      let o := report.outcome
      let records := report.log.map Event.record
      if o.isChanged then
        { outcome := some o
          events := records ++ w.changeNotices file o
          changes := changesFor mode file o }
      else
        { outcome := some o
          events := records ++ [.notice (.debug ("file=" ++ file.toText ++ " status=unchanged"))]
          changes := [] }

/-- What has been done so far: the `store` after all `changes` in order, the `outcomes`, the files
    that `failed`, and what was told; `error` is set once the run has ended early. -/
structure FixProgress where
  store : FileStore
  changes : List Change := []
  outcomes : List FixOutcome := []
  failed : List Location := []
  events : List Event := []
  error : Option RunError := none

/-- Makes `changes` one after the other with `FileStore.apply`, up to the first that fails. -/
def carryOut (s : FileStore) : List Change → FixProgress
  | [] => { store := s }
  | change :: changes =>
    match s.apply change with
    | .error e => { store := s, error := some (.file e) }
    | .ok s =>
      let rest := carryOut s changes
      { rest with changes := change :: rest.changes }

/-- Plans each file against the store left by those before it (`planFix`) and carries the plan out
    (`carryOut`), up to the first failure. -/
def fixFiles (w : Workspace) (mode : FixMode) (s : FileStore) : List Location → FixProgress
  | [] => { store := s }
  | file :: files =>
    match w.planFix mode s file with
    | .error e => { store := s, error := some (RunError.ofFix e) }
    | .ok plan =>
      let made := carryOut s plan.changes
      match made.error with
      -- the files still to come are left as they are
      | some _ => { made with events := plan.events }
      | none =>
        let rest := w.fixFiles mode made.store files
        { rest with
          changes := made.changes ++ rest.changes
          outcomes := plan.outcome.toList ++ rest.outcomes
          failed := if plan.outcome.isNone then file :: rest.failed else rest.failed
          events := plan.events ++ rest.events }

/-- The result of `fix`: the `store`, the `changes` made to it in order, what was told, and the
    `summary` unless the run has ended early. -/
structure FixRun where
  store : FileStore
  changes : List Change
  events : List Event
  summary : Except RunError FixSummary

/-- Fixes the files that `paths` stand for: `fixFiles` over `collect s paths`, between the notices
    of the start and the end. -/
def fix (w : Workspace) (mode : FixMode) (s : FileStore) (paths : List String) : FixRun :=
  let files := w.collect s paths
  let start := Event.notice (.step ("Fixing " ++ toString files.length ++ " file(s) ("
    ++ (if mode.dryRun then "dry run" else "writing changes") ++ ")"))
  let progress := w.fixFiles mode s files
  let before := w.missingNotices s paths ++ start :: progress.events
  match progress.error with
  | some e =>
    { store := progress.store, changes := progress.changes, events := before
      summary := .error e }
  | none =>
    let summary : FixSummary :=
      { outcomes := progress.outcomes, failed := progress.failed.map (·.toText) }
    let stop := Event.notice (.step ("Fix run complete. Files changed: "
      ++ toString summary.filesChanged ++ ", fixes applied: " ++ toString summary.fixesApplied
      ++ ", remaining: " ++ toString summary.remaining))
    { store := progress.store, changes := progress.changes, events := before ++ [stop]
      summary := .ok summary }

end Workspace

end ArrowLint
