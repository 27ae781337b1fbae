/-
  ArrowLint.Text.Quoted

  Texts in quotation marks, as they stand in messages. A text is put in single marks
  unless it holds a single one and no double one; the backslash and the mark in use are
  written with a backslash in front, and what does not print is written by its number.
-/

import ArrowLint.Text.Printable

namespace ArrowLint.Text

/-- The digit of a value `n` below sixteen. -/
def hexDigit (n : Nat) : Char :=
  if n < 10 then Char.ofNat (0x30 + n) else Char.ofNat (0x57 + n)

/-- The last `width` hexadecimal digits of a number, leading zeros included. -/
def hex : (width : Nat) → Nat → List Char
  | 0, _ => []
  | width + 1, n => hex width (n / 16) ++ [hexDigit (n % 16)]

/-- A character by its number, in the shortest of the three escaped forms that holds it (`hex`). -/
def numbered (c : Char) : List Char :=
  let n := c.toNat
  if n < 0x100 then '\\' :: 'x' :: hex 2 n
  else if n < 0x10000 then '\\' :: 'u' :: hex 4 n
  else '\\' :: 'U' :: hex 8 n

/-- The character `c` as it stands between quotation marks of the kind `mark`. -/
def quotedChar (mark c : Char) : List Char :=
  if c == mark || c == '\\' then ['\\', c]
  else if c == '\n' then ['\\', 'n']
  else if c == '\r' then ['\\', 'r']
  else if c == '\t' then ['\\', 't']
  else if isPrintable c then [c]
  else numbered c

/-- The mark that a text is put in: a double one only where there are single ones and no double ones
    in it. -/
def markFor (cs : List Char) : Char :=
  if cs.contains '\x27' && !cs.contains '\x22' then '\x22' else '\x27'

/-- The text `s` between quotation marks of the kind `markFor`. -/
def quoted (s : String) : String :=
  let mark := markFor s.toList
  String.ofList (mark :: (s.toList.flatMap (quotedChar mark) ++ [mark]))

end ArrowLint.Text
