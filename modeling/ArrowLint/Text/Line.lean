/-
  ArrowLint.Text.Line

  Lines of a text: where they end, the headline of a text that may have several, and
  the form in which every line ends with the same character.
-/

namespace ArrowLint.Text

/-- The characters that end a line. A return followed by a line feed ends one line. -/
def isLineBreak (c : Char) : Bool :=
  let n := c.toNat
  (0x0a ≤ n && n ≤ 0x0d) || (0x1c ≤ n && n ≤ 0x1e) || n == 0x85 || n == 0x2028 || n == 0x2029

/-- The first line of `s`, without the `isLineBreak` that ends it. -/
def firstLine (s : String) : String :=
  String.ofList (s.toList.takeWhile (!isLineBreak ·))

/-- A text in one line: `s` itself, or its `firstLine` and a sign that more follows. -/
def headline (s : String) : String :=
  let first := firstLine s
  if first == s then first else first ++ " ..."

/-- Ends every line with a line feed: a return and a line feed, and a return alone, become one. -/
def unifyNewlines : List Char → List Char
  | '\r' :: '\n' :: rest => '\n' :: unifyNewlines rest
  | '\r' :: rest => '\n' :: unifyNewlines rest
  | c :: rest => c :: unifyNewlines rest
  | [] => []

end ArrowLint.Text
