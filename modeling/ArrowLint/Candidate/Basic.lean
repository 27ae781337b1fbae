/-
  ArrowLint.Candidate.Basic

  Functions that may be written as arrow functions, and what the rule knows of each:
  which of the five shapes it looks at the function has, what the function is in its
  program, how its body is built and where it stands.
-/

import ArrowLint.Syntax.Node

namespace ArrowLint

/-- What a function is in its program; `Role.word` is its name in records. -/
inductive Role where
  | declaration
  | expression
  | objectMethod
  | classMethod
  | arrow
  deriving DecidableEq

/-- The word for a `Role`. -/
def Role.word : Role → String
  | .declaration => "declaration"
  | .expression => "expression"
  | .objectMethod => "object-method"
  | .classMethod => "class-method"
  | .arrow => "arrow"

/-- The shapes of function that `Candidate.verdict` tells apart. -/
inductive Shape where
  /-- What a module exports by default. -/
  | defaultExport
  /-- A method, or the value of a member of an object or a class. -/
  | propertyValue
  /-- An arrow function whose body is no block. -/
  | arrowExpressionBody
  /-- An arrow function whose body is a block with one return statement and nothing else. -/
  | arrowSingleReturn
  /-- Any other function declaration or expression. -/
  | plainFunction
  deriving DecidableEq

/-- How the body of a function is built, as `Node.bodyShape` finds it. -/
inductive BodyShape where
  | blockMultiStatement
  /-- A block that holds nothing but a return with a value. -/
  | blockSingleReturn
  | expressionBody
  deriving DecidableEq

/-- Where a function stands, as `Node.context` finds it. -/
inductive Context where
  | none
  /-- In what is assigned to a prototype, as in `C.prototype = ...`. -/
  | prototypeAssignTarget
  /-- In what is assigned to a member of a prototype, as in `C.prototype.m = ...`. -/
  | prototypeMutationTarget
  | withinClassBody
  deriving DecidableEq

/-- Whether a `Context` is an assignment to a prototype or to a member of one. -/
def Context.isPrototype : Context → Bool
  | .prototypeAssignTarget | .prototypeMutationTarget => true
  | _ => false

/-- A function that may be written as an arrow function: its `node`, and what `Node.candidate?`
    finds out about it. -/
structure Candidate where
  node : Node
  role : Role
  shape : Shape
  bodyShape : BodyShape
  context : Context
  isAsync : Bool := false
  isGenerator : Bool := false
  name : String := ""
  isDefaultExport : Bool := false
  /-- The member of an object or a class that the function is the value of; a method is its own
      `entry`. -/
  entry : Option Node := none

namespace Candidate

/-- Whether the body is an expression or a block that only returns one, by its `bodyShape`. -/
def returnsImmediately (c : Candidate) : Bool :=
  c.bodyShape == .blockSingleReturn || c.bodyShape == .expressionBody

/-- Whether the function is exported by default under a `name`. -/
def isNamedDefaultExport (c : Candidate) : Bool :=
  c.isDefaultExport && c.name != ""

end Candidate

end ArrowLint
