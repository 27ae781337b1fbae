/-
  ArrowLint.Grammar

  Which grammar a file is read with, and what a parser answers. The file's suffix
  decides on the grammar: the one without markup elements lets a type in angle brackets
  stand ahead of an expression, the other one covers everything else.
-/

import ArrowLint.Syntax.Tree
import ArrowLint.Text.LowerCase
import ArrowLint.Path

namespace ArrowLint

/-- The two grammars of the parser; `Grammar.ofPath` picks one. -/
inductive Grammar where
  | typescript
  | tsx
  deriving DecidableEq

namespace Grammar

/-- The name of a `Grammar`. -/
def spelling : Grammar → String
  | .typescript => "typescript"
  | .tsx => "tsx"

/-- The grammar for the file at `path`: `typescript` by the suffixes `.ts`, `.mts` and `.cts` in any
    case, else `tsx`. -/
def ofPath (path : String) : Grammar :=
  if [".ts", ".mts", ".cts"].contains (Text.lower (Path.ofText path).suffix) then .typescript
  else .tsx

end Grammar

/-- What a parser answers: a `tree`, whatever the text, and whether it met errors on the way. -/
structure Parse where
  tree : Tree
  hasError : Bool

/-- A parser: for a `Grammar` and a text it answers with a `Parse`. -/
abbrev Parser := Grammar → String → Parse

end ArrowLint
