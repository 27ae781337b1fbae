/-
  ArrowLint.Log

  What the parts of the linter put on record while they work. A record names the part it
  comes from, and the reader chooses from which level on records are shown.
-/

namespace ArrowLint

/-- How much a `Record` matters. -/
inductive Level where
  | debug
  | info
  | warning
  | error
  deriving DecidableEq

namespace Level

/-- The word for a `Level` in a `Record.line`. -/
def word : Level → String
  | .debug => "DEBUG"
  | .info => "INFO"
  | .warning => "WARNING"
  | .error => "ERROR"

/-- The place of a `Level` in the order of importance, for `reaches`. -/
def rank : Level → Nat
  | .debug => 0
  | .info => 1
  | .warning => 2
  | .error => 3

/-- Whether `level` matters at least as much as `threshold`. -/
def reaches (level threshold : Level) : Bool :=
  threshold.rank ≤ level.rank

end Level

/-- The part of the linter that a `Record` comes from. -/
inductive Origin where
  | settings
  | lint
  | rule
  | fixer
  /-- The reports on the progress of a run, under the `name` of the `Announcer`. -/
  | progress (name : String)
  deriving DecidableEq

/-- The name under which an `Origin` keeps its records. `settings` and a `progress` without a name
    share that of the whole. -/
def Origin.logger : Origin → String
  | .settings => "prefer-arrow"
  | .lint => "prefer_arrow.use_cases.lint_source"
  | .rule => "prefer_arrow.domain.rules.prefer_arrow"
  | .fixer => "prefer_arrow.infrastructure.gateways.text_fixer_gateway"
  | .progress name => if name == "" then "root" else name

/-- One entry of the record: a `message`, its `level` and the `origin` it comes from. -/
structure Record where
  level : Level
  origin : Origin
  message : String
  deriving DecidableEq

/-- A `Record` as a line: its level, the name of its origin and the message. -/
def Record.line (r : Record) : String :=
  r.level.word ++ " " ++ r.origin.logger ++ ": " ++ r.message

end ArrowLint
