/-
  ArrowLint.Text.Console

  What a console makes of a text that it shows. It drops the characters that would ring
  its bell or move its cursor back, and it fills tabs up with blanks. It reads a message
  as mark-up whose tags have been escaped, which leaves two traces on backslashes.
-/

import ArrowLint.Text.Search
import ArrowLint.Text.Width

namespace ArrowLint.Text

/-! ## Controls and tabs -/

/-- The characters that a console acts upon and does not show: the bell, the backspace, the vertical
    tab, the form feed and the return. -/
def isConsoleControl (c : Char) : Bool :=
  [0x07, 0x08, 0x0b, 0x0c, 0x0d].contains c.toNat

/-- The text `s` without the characters that are `isConsoleControl`. -/
def withoutControls (s : String) : String :=
  String.ofList (s.toList.filter (!isConsoleControl ·))

/-- A text of `n` blanks. -/
def blanks (n : Nat) : String :=
  String.ofList (List.replicate n ' ')

/-- The columns from one tab stop to the next. -/
def tabSize : Nat := 8

/-- The pieces of a line between its tabs put together again, the first at `column`: each tab gives
    way to the blanks, at least one, up to the next multiple of `tabSize`. -/
def joinAtStops (column : Nat) : List String → String
  | [] => ""
  | [piece] => piece
  | piece :: rest =>
    let reached := column + width piece
    let fill := tabSize - reached % tabSize
    piece ++ blanks fill ++ joinAtStops (reached + fill) rest

/-- A `line` with blanks in place of its tabs, as `joinAtStops` puts them. -/
def expandTabs (line : List Char) : String :=
  joinAtStops 0 ((splitAt '\t' line).map String.ofList)

/-- A text as a console shows it: `withoutControls`, each line with its tabs expanded. -/
def onConsole (s : String) : String :=
  "\n".intercalate ((splitAt '\n' (withoutControls s).toList).map expandTabs)

/-! ## Escaped mark-up -/

/-- Whether what follows a bracket makes it a tag: a small letter or one of `#`, `/` and `@`, and
    then a closing bracket ahead of the next opening one. -/
def opensTag : List Char → Bool
  | [] => false
  | c :: rest =>
    (('a' ≤ c && c ≤ 'z') || c == '#' || c == '/' || c == '@')
      && (rest.find? fun d => d == '[' || d == ']') == some ']'

/-- A message without the backslashes that stand directly ahead of a bracket which opens no tag.
    Those ahead of one that `opensTag` are escaped with it and stay. -/
def dropBackslashes : List Char → List Char
  | '\\' :: '[' :: rest =>
    if opensTag rest then '\\' :: '[' :: dropBackslashes rest else '[' :: dropBackslashes rest
  | c :: rest => c :: dropBackslashes rest
  | [] => []

/-- The message `s` with a second backslash at its end, if it ends in a single one. -/
def doubleLastBackslash (s : String) : String :=
  if endsWith s "\\" && !endsWith s "\\\\" then s ++ "\\" else s

/-- A message as it comes out of mark-up after its tags have been escaped. -/
def throughMarkup (s : String) : String :=
  String.ofList (dropBackslashes (doubleLastBackslash s).toList)

end ArrowLint.Text
