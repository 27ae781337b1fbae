/-
  ArrowLint.Fix.Arrow

  The text of an arrow function, put together from its parts. The parts are taken over
  as they are and never read again.
-/

import ArrowLint.Value.Basic

namespace ArrowLint

/-- The parts of an arrow function, with `lead` and `tail` before and after it. -/
structure Arrow where
  lead : String := ""
  isAsync : Bool := false
  typeParameters : String := ""
  parameters : List String := []
  returnType : String := ""
  body : String := ""
  tail : String := ""
  deriving DecidableEq

namespace Arrow

/-- The text of an `Arrow`. -/
def render (a : Arrow) : String :=
  a.lead ++ (if a.isAsync then "async " else "") ++ a.typeParameters
    ++ "(" ++ ", ".intercalate a.parameters ++ ")" ++ a.returnType ++ " => " ++ a.body ++ a.tail

/-! ## Arrow functions from tables -/

/-- The arrow `a` with the part of a given name set to `value`. It is `none` where no part has the
    name, and where the value is not what the part is made of. -/
def set? (a : Arrow) (part : String) (value : Value) : Option Arrow :=
  match part with
  | "prefix" => value.text?.map fun text => { a with lead := text }
  | "is_async" => some { a with isAsync := value.isPresent }
  | "type_parameters" => value.text?.map fun text => { a with typeParameters := text }
  | "parameters" => value.texts?.map fun texts => { a with parameters := texts }
  | "return_type" => value.text?.map fun text => { a with returnType := text }
  | "body" => value.text?.map fun text => { a with body := text }
  | "suffix" => value.text?.map fun text => { a with tail := text }
  | _ => none

/-- The `Arrow` of a table of parts, each put in by `set?`. Those that are not given are empty. -/
def ofTable? (parts : Table) : Option Arrow :=
  parts.foldlM (fun a entry => a.set? entry.1 entry.2) {}

end Arrow

end ArrowLint
