/-
  ArrowLint.Candidate.Verdict

  May a candidate be written as an arrow function without a change of meaning, and do
  the options ask for it? An arrow function has no receiver, no `super`, no `arguments`
  and no `new.target` of its own, so a function whose source mentions one of them stays
  as it is. `Candidate.verdict` gives the message to report, or the first condition that
  stands against it. Only names are read, and only up to the first such mention: a name
  that is no text leaves no verdict.
-/

import ArrowLint.Candidate.Basic
import ArrowLint.Message
import ArrowLint.Options
import ArrowLint.Text.Blank

namespace ArrowLint

/-- What stands against writing a `Candidate` as an arrow function. -/
inductive Obstacle where
  | generator
  | this
  | superclass
  | arguments
  | newTarget
  | prototypeAssignment
  | notSingleReturn
  | namedDefaultExport
  | classBody
  | constructor
  | optionalMember
  | returnStyle
  | emptyReturn
  deriving DecidableEq

/-- The words for an `Obstacle` in the log. -/
def Obstacle.words : Obstacle → String
  | .generator => "generator"
  | .this => "this"
  | .superclass => "super"
  | .arguments => "arguments"
  | .newTarget => "new.target"
  | .prototypeAssignment => "prototype-assignment"
  | .notSingleReturn => "not-single-return"
  | .namedDefaultExport => "named-default-export"
  | .classBody => "class-body"
  | .constructor => "constructor"
  | .optionalMember => "optional-member"
  | .returnStyle => "return-style"
  | .emptyReturn => "empty-return"

/-- What the rule says of a `Candidate`. -/
inductive Verdict where
  | report (message : Message)
  | skip (obstacle : Obstacle)
  deriving DecidableEq

/-- The `Verdict` that reports `message`, unless there is an `obstacle`. -/
def Verdict.unless (obstacle : Option Obstacle) (message : Message) : Verdict :=
  match obstacle with
  | some obstacle => .skip obstacle
  | none => .report message

/-! ## What a function must not mention -/

/-- What a single node would lose in an arrow function. `new.target` counts by its spelling, white
    space apart, whether the grammar has a kind for it or takes it for a member. -/
def Node.obstacle? (n : Node) : Except NodeError (Option Obstacle) :=
  if n.kind.isThis then .ok (some .this)
  else if n.kind == .superKeyword then .ok (some .superclass)
  else if n.kind.isIdentifier then
    n.text.map fun text => if text == "arguments" then some .arguments else none
  else if n.kind == .metaProperty || n.kind == .memberExpression then
    n.text.map fun text => if Text.spellsOut text "new.target" then some .newTarget else none
  else .ok none

/-- The fields of a method that belong to the function. Its key is computed outside. -/
def methodParts : List Field :=
  [.typeParameters, .parameters, .returnType, .body]

/-- The nodes that become part of the arrow function: those below the `methodParts` of a method, and
    `n.walk` for any other function. -/
def Node.scanned (n : Node) : List Node :=
  if n.kind == .methodDefinition then (methodParts.filterMap n.field).flatMap Node.walk
  else n.walk

namespace Candidate

/-! ## Conditions on a candidate -/

/-- The obstacle of a `Context` that `isPrototype`, unless `disallowPrototype` is set. -/
def prototypeGate? (c : Candidate) (o : Options) : Option Obstacle :=
  if c.context.isPrototype && !o.disallowPrototype then some .prototypeAssignment else none

/-- The first `Obstacle` to writing `c` as an arrow function: that it is a generator, one of its
    `scanned` nodes, or its `prototypeGate?`. -/
def blocking? (c : Candidate) (o : Options) : Except NodeError (Option Obstacle) :=
  if c.isGenerator then .ok (some .generator)
  else (c.node.scanned.findSomeM? Node.obstacle?).map (· <|> c.prototypeGate? o)

/-- The obstacle to a report where `singleReturnOnly` is set: a body that does more than return, or
    a name that is exported by default. -/
def singleReturnGate? (c : Candidate) (o : Options) : Option Obstacle :=
  if !o.singleReturnOnly then none
  else if !c.returnsImmediately then some .notSingleReturn
  else if c.isNamedDefaultExport then some .namedDefaultExport
  else none

/-- The `Message` for a function that is to be an arrow function. -/
def arrowMessage (c : Candidate) (o : Options) : Message :=
  if o.singleReturnOnly && c.returnsImmediately then .useArrowWhenSingleReturn
  else .useArrowWhenFunction

/-- Whether a question mark stands among the children of `c.entry`, so that the member may be
    missing. -/
def isOptionalMember (c : Candidate) : Bool :=
  match c.entry with
  | some entry => entry.children.any (·.kind == .questionMark)
  | none => false

/-! ## The verdict on each shape -/

/-- The `Verdict` on a function that is no arrow function yet: `blocking?`, then
    `singleReturnGate?`. -/
def functionVerdict (c : Candidate) (o : Options) : Except NodeError Verdict :=
  (c.blocking? o).map fun blocking =>
    Verdict.unless (blocking <|> c.singleReturnGate? o) (c.arrowMessage o)

/-- The `Verdict` on a member of an object or a class. The gates for members of classes come ahead
    of `functionVerdict`. -/
def propertyVerdict (c : Candidate) (o : Options) : Except NodeError Verdict :=
  if (c.role == .classMethod || c.context == .withinClassBody) && !o.classPropertiesAllowed then
    .ok (.skip .classBody)
  else if c.role == .classMethod && c.name == "constructor" then .ok (.skip .constructor)
  else if c.isOptionalMember then .ok (.skip .optionalMember)
  else c.functionVerdict o

/-- The `Verdict` on an arrow function whose body is an expression, which only `explicit`
    reports. -/
def expressionBodyVerdict (c : Candidate) (o : Options) : Except NodeError Verdict :=
  if o.returnStyle != .explicit then .ok (.skip .returnStyle)
  else (c.blocking? o).map (Verdict.unless · .useExplicit)

/-- The `Verdict` on an arrow function whose body is a single return, which only `implicit`
    reports. -/
def singleReturnVerdict (c : Candidate) (o : Options) : Except NodeError Verdict :=
  if o.returnStyle != .implicit then .ok (.skip .returnStyle)
  else if !c.returnsImmediately then .ok (.skip .emptyReturn)
  else (c.blocking? o).map (Verdict.unless · .useImplicit)

/-- The `Verdict` on a candidate, by its `shape`. -/
def verdict (c : Candidate) (o : Options) : Except NodeError Verdict :=
  match c.shape with
  | .defaultExport | .plainFunction => c.functionVerdict o
  | .propertyValue => c.propertyVerdict o
  | .arrowExpressionBody => c.expressionBodyVerdict o
  | .arrowSingleReturn => c.singleReturnVerdict o

end Candidate

end ArrowLint
