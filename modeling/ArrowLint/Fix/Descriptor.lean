/-
  ArrowLint.Fix.Descriptor

  The parts of a candidate that its arrow function takes over, each as the source has it.
  There is no descriptor of a function without a body, nor of one with a part that is no
  text; the body itself is only read when its text is needed.
-/

import ArrowLint.Candidate.Basic

namespace ArrowLint

/-- What an arrow function takes over from the `Candidate` it replaces. -/
structure Descriptor where
  name : String
  isAsync : Bool
  parameters : List String
  body : Node
  returnType : String
  typeParameters : String
  /-- The words and decorators ahead of the name of a class member (`modifierTexts`). -/
  modifiers : List String

namespace Candidate

/-- The source of each parameter: of the one that stands without parentheses, or of the `statements`
    of the list, which leaves comments out. -/
def parameterTexts (c : Candidate) : Except NodeError (List String) :=
  match c.node.field .parameter with
  | some bare => bare.text.map fun text => [text]
  | none =>
    match c.node.field .parameters with
    | some list => list.statements.mapM Node.text
    | none => .ok []

/-- Whether the arrow function keeps the return type. Elsewhere it is dropped: what the function is
    bound to carries the type. -/
def keepsReturnType (c : Candidate) : Bool :=
  c.role == .declaration || c.role == .arrow || c.isDefaultExport

/-- The source of the return type, empty unless the candidate `keepsReturnType`. -/
def returnTypeText (c : Candidate) : Except NodeError String :=
  if c.keepsReturnType then c.node.fieldText .returnType else .ok ""

/-- Whether a token ahead of the name of a class member is taken over: all but `async`, a star and
    comments. -/
def isModifier (token : Node) : Bool :=
  token.kind != .asyncKeyword && token.kind != .star && !token.kind.isComment

/-- The sources of the tokens ahead of the name of a class member that are `isModifier`; `[]` for
    other functions. -/
def modifierTexts (c : Candidate) : Except NodeError (List String) :=
  match c.entry with
  | none => .ok []
  | some entry =>
    if entry.kind == .arrowFunction || !entry.isClassMember then .ok []
    else
      let name := entry.field .name <|> entry.field .key <|> entry.field .property
      ((entry.tokensBefore name).filter isModifier).mapM Node.text

/-- The parts of a `Candidate` that its arrow function takes over; `missingBody` for a function
    without one. -/
def descriptor (c : Candidate) : Except NodeError Descriptor :=
  match c.node.field .body with
  | none => .error (.missingBody c.node.kind c.node.start)
  | some body => do
    return {
      name := c.name
      isAsync := c.isAsync
      parameters := ← c.parameterTexts
      body := body
      returnType := ← c.returnTypeText
      typeParameters := ← c.node.fieldText .typeParameters
      modifiers := ← c.modifierTexts }

end Candidate

end ArrowLint
