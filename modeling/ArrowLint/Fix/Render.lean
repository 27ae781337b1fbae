/-
  ArrowLint.Fix.Render

  The fix for a candidate: which bytes of the source go, and which text takes their
  place. What the function is in its program decides on what comes before and after the
  arrow function, and the wanted return style on the text of its body.
-/

import ArrowLint.Options
import ArrowLint.Fix.Arrow
import ArrowLint.Fix.Descriptor
import ArrowLint.Fix.Span

namespace ArrowLint

namespace Node

/-- The range of a node, as the `Span` of a fix. -/
def span (n : Node) : Span :=
  ⟨n.start, n.stop⟩

/-- The first child of the only one of `block.statements`: what a block with a single return
    gives. -/
def returnedExpression (block : Node) : Option Node :=
  match block.statements with
  | [statement] => statement.statements.head?
  | _ => none

/-- Whether an expression of this `kind` and `text` needs parentheses as the body of an arrow
    function. One that starts with a brace would be read as a block, and a sequence would end at its
    first comma. -/
def needsParentheses (kind : Kind) (text : String) : Bool :=
  kind == .object || kind == .sequenceExpression || text.toList.head? == some '\x7b'

/-- The source of an `expression` as the body of an arrow function, in parentheses if it
    `needsParentheses`. -/
def asImplicitBody (expression : Node) : Except NodeError String :=
  expression.text.map fun text =>
    if needsParentheses expression.kind text then "(" ++ text ++ ")" else text

/-- Whether the `nextSibling` is a semicolon that stands in the source. -/
def isFollowedBySemicolon (n : Node) : Bool :=
  n.nextSibling.any (·.isWrittenSemicolon)

end Node

/-- The body of an arrow function. A single return gives its expression unless `style` is
    `explicit`; an expression is put in a block unless it is `implicit`; all else stays as it is. -/
def bodyText (shape : BodyShape) (body : Node) (style : ReturnStyle) : Except NodeError String :=
  let lifted :=
    if shape == .blockSingleReturn && style != .explicit then body.returnedExpression else none
  match lifted with
  | some expression => expression.asImplicitBody
  | none =>
    body.text.map fun text =>
      if shape == .expressionBody && style != .implicit then "\x7b return " ++ text ++ " \x7d"
      else text

/-- The `Arrow` for what a descriptor holds, with nothing before or after it. -/
def Descriptor.arrow (d : Descriptor) (shape : BodyShape) (style : ReturnStyle) :
    Except NodeError Arrow :=
  (bodyText shape d.body style).map fun body =>
    { isAsync := d.isAsync
      typeParameters := d.typeParameters
      parameters := d.parameters
      returnType := d.returnType
      body := body }

/-- The `Fix` for a member. In a class `entry` becomes a field, and the semicolon that follows it
    goes with it; in an object it becomes a key and a value. -/
def memberFix (entry : Node) (d : Descriptor) (arrow : Arrow) : Fix :=
  if entry.isClassMember then
    let stop :=
      match entry.nextSibling with
      | some sibling => if sibling.isWrittenSemicolon then sibling.stop else entry.stop
      | none => entry.stop
    -- the words ahead of a member stay ahead of its name
    let lead := " ".intercalate (d.modifiers ++ [d.name]) ++ " = "
    { span := ⟨entry.start, stop⟩, text := { arrow with lead := lead, tail := ";" }.render }
  else
    { span := entry.span, text := { arrow with lead := d.name ++ ": " }.render }

/-- The `Fix` that puts `arrow` in the place of a candidate. A default export keeps the words ahead
    of it, and a declaration becomes the declaration of a constant. -/
def Candidate.fixWith (c : Candidate) (d : Descriptor) (arrow : Arrow) : Fix :=
  match c.shape, c.entry with
  | .propertyValue, some entry => memberFix entry d arrow
  | _, _ =>
    let arrow :=
      if c.isDefaultExport then
        if c.node.isFollowedBySemicolon then arrow else { arrow with tail := ";" }
      else if c.role == .declaration then
        { arrow with lead := "const " ++ d.name ++ " = ", tail := ";" }
      else arrow
    { span := c.node.span, text := arrow.render }

/-- The `Fix` for a candidate with the descriptor `d` under a `style`. -/
def Candidate.fix (c : Candidate) (d : Descriptor) (style : ReturnStyle) : Except NodeError Fix :=
  (d.arrow c.bodyShape style).map (c.fixWith d)

end ArrowLint
