/-
  ArrowLint.Value.Literal

  Values as they are written in messages: names for the three constants, texts in
  quotation marks, lists in brackets and tables in braces.
-/

import ArrowLint.Text.Quoted
import ArrowLint.Value.Basic

namespace ArrowLint

namespace Decimal

/-- The `digits` without the zeros at their end, and the power of ten of the last digit left. -/
def trimmed : (fuel : Nat) → (digits : Nat) → (exponent : Int) → Nat × Int
  | 0, digits, exponent => (digits, exponent)
  | fuel + 1, digits, exponent =>
    if digits != 0 && digits % 10 == 0 then trimmed fuel (digits / 10) (exponent + 1)
    else (digits, exponent)

/-- The exponent `e` with its sign, in at least two digits. -/
def exponentText (e : Int) : String :=
  let digits := toString e.natAbs
  (if e < 0 then "-" else "+") ++ (if digits.length < 2 then "0" ++ digits else digits)

/-- A `Decimal` in the shortest form. The point is written out for magnitudes from one
    ten-thousandth up to ten to the sixteenth; beyond, the first digit stands alone and a power of
    ten follows. -/
def literal (d : Decimal) : String :=
  let sign := if d.isNegative then "-" else ""
  let (digits, exponent) := trimmed (toString d.digits).length d.digits d.exponent
  let ds := (toString digits).toList
  let magnitude : Int := if digits == 0 then 0 else exponent + ds.length - 1
  let body :=
    if digits == 0 then "0.0"
    else if magnitude < -4 || 16 ≤ magnitude then
      let mantissa :=
        match ds with
        | [] => []
        | [first] => [first]
        | first :: rest => first :: '.' :: rest
      String.ofList mantissa ++ "e" ++ exponentText magnitude
    else if 0 ≤ exponent then
      String.ofList (ds ++ List.replicate exponent.toNat '0') ++ ".0"
    else if 0 ≤ magnitude then
      let whole := magnitude.toNat + 1
      String.ofList (ds.take whole ++ '.' :: ds.drop whole)
    else
      "0." ++ String.ofList (List.replicate (-magnitude - 1).toNat '0' ++ ds)
  sign ++ body

end Decimal

namespace Value

mutual

/-- A `Value` as it is written in a message. -/
def literal : Value → String
  | .null => "None"
  | .bool b => if b then "True" else "False"
  | .int i => toString i
  | .decimal d => d.literal
  | .text s => Text.quoted s
  | .list items => "[" ++ ", ".intercalate (itemLiterals items) ++ "]"
  | .table entries => "\x7b" ++ ", ".intercalate (entryLiterals entries) ++ "\x7d"

/-- The items of a list, each as `literal` writes it. -/
def itemLiterals : List Value → List String
  | [] => []
  | item :: items => literal item :: itemLiterals items

/-- The entries of a table, each as `literal` writes its value. -/
def entryLiterals : List (String × Value) → List String
  | [] => []
  | (key, value) :: entries => (Text.quoted key ++ ": " ++ literal value) :: entryLiterals entries

end

/-- The text that a value stands for: a `text` is taken as it is, and any other value as `literal`
    writes it. -/
def display : Value → String
  | .text s => s
  | v => v.literal

end Value

end ArrowLint
