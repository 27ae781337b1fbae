/-
  ArrowLint.Value.Json

  Values as JSON documents in plain ASCII. Nested items stand on lines of their own, two
  blanks further in than what holds them; every character that is not a printing ASCII
  one is written by the numbers of its UTF-16 units.
-/

import ArrowLint.Text.Quoted
import ArrowLint.Value.Basic

namespace ArrowLint

namespace Json

/-- The UTF-16 unit `n` as an escape, with four digits. -/
def unit (n : Nat) : List Char :=
  '\\' :: 'u' :: Text.hex 4 n

/-- A character as it stands in a JSON text: as it is, escaped, or as one `unit` or the pair that
    stands for a character beyond the first plane. -/
def escaped (c : Char) : List Char :=
  let n := c.toNat
  if c == '\x22' || c == '\\' then ['\\', c]
  else if c == '\n' then ['\\', 'n']
  else if c == '\r' then ['\\', 'r']
  else if c == '\t' then ['\\', 't']
  else if n == 8 then ['\\', 'b']
  else if n == 12 then ['\\', 'f']
  else if 0x20 ≤ n && n ≤ 0x7e then [c]
  else if n < 0x10000 then unit n
  -- beyond the first plane: the upper ten bits in a high unit, the lower ten in a low one
  else unit (0xd800 + (n - 0x10000) / 0x400) ++ unit (0xdc00 + (n - 0x10000) % 0x400)

/-- The text `s` between double quotation marks, each character `escaped`. -/
def quoted (s : String) : List Char :=
  '\x22' :: (s.toList.flatMap escaped ++ ['\x22'])

/-- A line break and the blanks that `depth` asks for. -/
def lineBreak (depth : Nat) : List Char :=
  '\n' :: List.replicate (2 * depth) ' '

/-- A `Decimal` by its digits and its power of ten. -/
def ofDecimal (d : Decimal) : List Char :=
  ((if d.isNegative then "-" else "") ++ toString d.digits ++ "e" ++ toString d.exponent).toList

mutual

/-- A value at a `depth`, with every item of a list or a table on a line of its own. -/
def print (depth : Nat) : Value → List Char
  | .null => "null".toList
  | .bool b => (if b then "true" else "false").toList
  | .int i => (toString i).toList
  | .decimal d => ofDecimal d
  | .text s => quoted s
  | .list [] => "[]".toList
  | .list (item :: items) =>
    '[' :: lineBreak (depth + 1) ++ print (depth + 1) item
      ++ printItems (depth + 1) items ++ lineBreak depth ++ [']']
  | .table [] => ['\x7b', '\x7d']
  | .table ((key, value) :: entries) =>
    '\x7b' :: lineBreak (depth + 1) ++ quoted key ++ [':', ' '] ++ print (depth + 1) value
      ++ printEntries (depth + 1) entries ++ lineBreak depth ++ ['\x7d']

/-- The items of a list after its first, each `print`ed with the comma before it. -/
def printItems (depth : Nat) : List Value → List Char
  | [] => []
  | item :: items => ',' :: lineBreak depth ++ print depth item ++ printItems depth items

/-- The entries of a table after its first, each with its `quoted` key and the comma before it. -/
def printEntries (depth : Nat) : List (String × Value) → List Char
  | [] => []
  | (key, value) :: entries =>
    ',' :: lineBreak depth ++ quoted key ++ [':', ' '] ++ print depth value
      ++ printEntries depth entries

end

/-- The document that holds `v`, at depth `0`. -/
def document (v : Value) : String :=
  String.ofList (print 0 v)

end Json

end ArrowLint
