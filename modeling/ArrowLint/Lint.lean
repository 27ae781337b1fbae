/-
  ArrowLint.Lint

  Linting one source: every node of its tree is looked at in pre-order, and each
  candidate either is reported with its fix or is put on record with what stands against
  it. Linting fails where a node that has to be read is no text, and where a reported
  function has no body.
-/

import ArrowLint.Candidate.Classify
import ArrowLint.Candidate.Verdict
import ArrowLint.Grammar
import ArrowLint.Log
import ArrowLint.Fix.Render

namespace ArrowLint

/-- A function that can be written as an arrow function, with the `fix` that does so. -/
structure Violation where
  /-- The name of its `Message`. -/
  code : String
  /-- The text of its `Message`. -/
  message : String
  /-- The path of the file, the line from one and the column from zero, with colons between them. -/
  location : String
  /-- The line, counted from one. -/
  line : Nat
  fix : Fix
  deriving DecidableEq

/-- The rule as a project applies it, under `options` and with `texts` for its messages. -/
structure Rule where
  options : Options
  texts : MessageTexts

/-- What the rule says of one node: `none`, a `violation`, or that a candidate is `skipped`. -/
inductive Finding where
  /-- The node is no `Candidate`. -/
  | none
  | violation (v : Violation)
  | skipped (r : Record)

namespace Rule

/-- The place of `n` in the file at `path`: its line from one and its column from zero. -/
def locationOf (n : Node) (path : String) : String :=
  path ++ ":" ++ toString n.line ++ ":" ++ toString n.label.column

/-- The record of a candidate `c` that is not reported, with the `obstacle` that stands against
    it. -/
def skipRecord (c : Candidate) (path : String) (obstacle : Obstacle) : Record :=
  { level := .debug, origin := .rule
    message := "Skipping " ++ c.role.word ++ " at " ++ path ++ ":" ++ toString c.node.line
      ++ " (" ++ obstacle.words ++ ")" }

/-- What the rule says of `c`, by its `Candidate.verdict`: it is skipped, or reported with its
    fix. -/
def judge (rule : Rule) (path : String) (c : Candidate) : Except NodeError Finding := do
  match ← c.verdict rule.options with
  | .skip obstacle => return .skipped (skipRecord c path obstacle)
  | .report message =>
    return .violation {
      code := message.id
      message := rule.texts.textFor message.id
      location := locationOf c.node path
      line := c.node.line
      fix := ← c.fix (← c.descriptor) rule.options.returnStyle }

/-- What the rule says of `n`: nothing unless `n.candidate?` has an answer, and else what `judge`
    says. -/
def check (rule : Rule) (path : String) (n : Node) : Except NodeError Finding := do
  match ← n.candidate? with
  | some c => rule.judge path c
  | none => return .none

end Rule

/-- The `violations` in the source of `path`. -/
structure LintResult where
  path : String
  violations : List Violation
  hasSyntaxErrors : Bool
  deriving DecidableEq

namespace LintResult

/-- Whether there are violations in `r`. -/
def hasViolations (r : LintResult) : Bool :=
  !r.violations.isEmpty

end LintResult

/-- The `result` of linting, and what was put on record meanwhile. -/
structure LintReport where
  result : LintResult
  log : List Record

/-- The violations among `findings`, in their order. -/
def violationsOf (findings : List Finding) : List Violation :=
  findings.filterMap fun
    | .violation v => some v
    | _ => none

/-- The records of skipped candidates among `findings`, in their order. -/
def recordsOf (findings : List Finding) : List Record :=
  findings.filterMap fun
    | .skipped r => some r
    | _ => none

/-- A linter: a `rule`, and a `parser` to read sources with. -/
structure Linter where
  rule : Rule
  parser : Parser

namespace Linter

/-- The `Record` of a source whose parse has errors, by its `path` if it has one. -/
def syntaxErrorRecord (path : String) : Record :=
  { level := .warning, origin := .lint
    message := "Syntax errors in " ++ (if path == "" then "<source>" else path)
      ++ "; linting the recoverable parts." }

/-- The findings on the tree of `parse`, node by node in pre-order (`Node.walk`). -/
def findings (linter : Linter) (path : String) (parse : Parse) :
    Except NodeError (List Finding) :=
  (Node.root parse.tree).walk.mapM (linter.rule.check path)

/-- Lints `source`, parsed with the grammar that `path` asks for: the violations are those among the
    `findings`. -/
def lint (linter : Linter) (source path : String) : Except NodeError LintReport :=
  let parse := linter.parser (Grammar.ofPath path) source
  (linter.findings path parse).map fun findings =>
    { result := {
        path := path
        violations := violationsOf findings
        hasSyntaxErrors := parse.hasError }
      log := (if parse.hasError then [syntaxErrorRecord path] else []) ++ recordsOf findings }

end Linter

end ArrowLint
