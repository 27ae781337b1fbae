/-
  ArrowLint.Candidate.Classify

  Finding the candidates among the nodes of a tree. `Node.candidate?` says of every node
  whether it is one:

    1. a function declaration or expression under a default export;
    2. a method under a plain name that is no accessor, or a function expression that is
       the value of a member under a plain name;
    3. an arrow function whose body is an expression;
    4. an arrow function whose body is a block with a return and nothing else;
    5. any other function declaration or expression.

  The names of members and the left sides of assignments are read on the way, so
  classifying fails where one of them is no text.
-/

import ArrowLint.Candidate.Basic

namespace ArrowLint

namespace Node

/-! ## The body -/

/-- The only one of `block.statements`, if it is a return. -/
def singleReturn (block : Node) : Option Node :=
  match block.statements with
  | [statement] => if statement.kind == .returnStatement then some statement else none
  | _ => none

/-- The expression behind the `return` of a `statement`, if there is one. -/
def returnArgument (statement : Node) : Option Node :=
  statement.statements.head?

/-- The `BodyShape` of a function. One without a body, or with a body that is no block, counts as
    `expressionBody`. -/
def bodyShape (n : Node) : BodyShape :=
  match n.field .body with
  | none => .expressionBody
  | some body =>
    if body.kind != .statementBlock then .expressionBody
    else
      match body.singleReturn.bind returnArgument with
      | some _ => .blockSingleReturn
      | none => .blockMultiStatement

/-! ## The header -/

/-- The tokens ahead of the parameters, in a list or a single one without parentheses. -/
def headerTokens (n : Node) : List Node :=
  n.tokensBefore (n.field .parameters <|> n.field .parameter)

/-- Whether `async` is among the `headerTokens`. -/
def isAsync (n : Node) : Bool :=
  n.headerTokens.any (·.kind == .asyncKeyword)

/-- Whether a function is a generator, by its kind or by a star among the `headerTokens`. -/
def isGenerator (n : Node) : Bool :=
  n.kind.isGenerator || n.headerTokens.any (·.kind == .star)

/-! ## The place -/

/-- Whether a node is a member expression whose property is spelled `prototype`. -/
def isPrototype (n : Node) : Except NodeError Bool :=
  if n.kind == .memberExpression then (n.fieldText .property).map (· == "prototype")
  else .ok false

/-- Whether a node is a member expression whose object `isPrototype`. -/
def isPrototypeMember (n : Node) : Except NodeError Bool :=
  match n.field .object with
  | some object => if n.kind == .memberExpression then object.isPrototype else .ok false
  | none => .ok false

/-- What the `left` side of an assignment says of the place: a prototype, a member of one, or
    nothing. -/
def prototypeContext? (left : Node) : Except NodeError (Option Context) := do
  if ← left.isPrototype then return some .prototypeAssignTarget
  else if ← left.isPrototypeMember then return some .prototypeMutationTarget
  else return none

/-- What one node says of the place of those below it: the `prototypeContext?` of its left side, if
    it is an assignment. -/
def assignmentContext? (n : Node) : Except NodeError (Option Context) :=
  if n.kind.isAssignment then
    match n.field .left with
    | some left => left.prototypeContext?
    | none => .ok none
  else .ok none

/-- The `Context` of a function with the nodes `above` it, the nearest first. The first that has an
    `assignmentContext?` decides, and without one the presence of a class body. -/
def contextOf (above : List Node) : Except NodeError Context :=
  (above.findSomeM? assignmentContext?).map fun
    | some context => context
    | none => if above.any (·.kind == .classBody) then .withinClassBody else .none

/-- The `Context` of a node, by its `ancestors`. -/
def context (n : Node) : Except NodeError Context :=
  contextOf n.ancestors

/-- The `Role` of a function whose `entry` is a member of a class, or else of an object. -/
def memberRole (entry : Node) : Role :=
  if entry.isClassMember then .classMethod else .objectMethod

/-- Whether a node is an export statement with the word `default`. -/
def isDefaultExport (n : Node) : Bool :=
  n.kind == .exportStatement && n.children.any (·.kind == .defaultKeyword)

/-! ## The shapes -/

/-- The `Candidate` that `n` makes in a role and a shape, under the given `name`. -/
def candidateNamed (n : Node) (role : Role) (shape : Shape) (name : String) :
    Except NodeError Candidate :=
  n.context.map fun context =>
    { node := n, role := role, shape := shape
      bodyShape := n.bodyShape, context := context
      isAsync := n.isAsync, isGenerator := n.isGenerator
      name := name }

/-- The `Candidate` that `n` makes in a role and a shape, under the text of its field `name`. -/
def toCandidate (n : Node) (role : Role) (shape : Shape) : Except NodeError Candidate := do
  n.candidateNamed role shape (← n.fieldText .name)

/-- The node that names a member: its field `key`, else `name`, else `property`. -/
def memberKey (entry : Node) : Option Node :=
  entry.field .key <|> entry.field .name <|> entry.field .property

/-- A function expression as the value of the member `entry` directly above it, under a key that is
    a plain or a private name. -/
def propertyCandidate? (n entry : Node) : Except NodeError (Option Candidate) :=
  if !n.isParentField .value then .ok none
  else
    match entry.memberKey with
    | none => .ok none
    | some key =>
      if key.kind.isPropertyName then do
        let c ← n.candidateNamed entry.memberRole .propertyValue (← key.text)
        return some { c with entry := some entry }
      else .ok none

/-- Whether a node is a pair of an object or a field of a class. -/
def isMember (n : Node) : Bool :=
  n.kind == .pair || n.kind.isFieldDefinition

/-- The candidate of a function declaration or expression with a body. The node above decides: an
    export by default comes first, then `propertyCandidate?`. -/
def functionCandidate? (n : Node) : Except NodeError (Option Candidate) :=
  if (n.field .body).isNone then .ok none
  else
    let isExpression := n.kind == .functionExpression
    let plain :=
      n.toCandidate (if isExpression then .expression else .declaration) .plainFunction
    match n.parent with
    | none => plain.map some
    | some parent =>
      -- an export by default comes first: it decides what the function is, whatever its kind
      if parent.isDefaultExport then
        (n.toCandidate .declaration .defaultExport).map fun c =>
          some { c with isDefaultExport := true }
      else if isExpression && parent.isMember then n.propertyCandidate? parent
      else plain.map some

/-- The candidate of a method with a body and a plain name, which is its own `entry`. Accessors are
    none: they have no counterpart. -/
def methodCandidate? (n : Node) : Except NodeError (Option Candidate) :=
  match n.field .name with
  | none => .ok none
  | some name =>
    let leading := (n.tokensBefore (some name)).map (·.kind)
    if !name.kind.isPropertyName || (n.field .body).isNone then .ok none
    else if leading.contains .getKeyword || leading.contains .setKeyword then .ok none
    else do
      let c ← n.candidateNamed n.memberRole .propertyValue (← name.text)
      return some { c with
        isGenerator := leading.contains .star || n.isGenerator
        entry := some n }

/-- The candidate of an arrow function, unless its body is a block that is no single return. -/
def arrowCandidate? (n : Node) : Except NodeError (Option Candidate) :=
  match n.field .body with
  | none => .ok none
  | some body =>
    if body.kind != .statementBlock then (n.toCandidate .arrow .arrowExpressionBody).map some
    else if body.singleReturn.isSome then (n.toCandidate .arrow .arrowSingleReturn).map some
    else .ok none

/-- The `Candidate` that a node is, if it is one. -/
def candidate? (n : Node) : Except NodeError (Option Candidate) :=
  if !n.label.isNamed then .ok none
  else
    match n.kind with
    | .methodDefinition => n.methodCandidate?
    | .arrowFunction => n.arrowCandidate?
    | .functionDeclaration | .functionExpression => n.functionCandidate?
    | _ => .ok none

/-- The candidates among the nodes of `n.walk`, in pre-order. -/
def candidates (n : Node) : Except NodeError (List Candidate) :=
  (n.walk.mapM candidate?).map (·.filterMap id)

end Node

end ArrowLint
