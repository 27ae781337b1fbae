/-
  ArrowLint.Text.Blank

  White space of every script, and the part of a text that is left without it.
-/

namespace ArrowLint.Text

/-- White space: tabs, line and page breaks, the separators of records and units, and every
    space of Unicode, also the one that does not break. -/
def isBlank (c : Char) : Bool :=
  let n := c.toNat
  (0x09 ≤ n && n ≤ 0x0d) || (0x1c ≤ n && n ≤ 0x20) || n == 0x85 || n == 0xa0 || n == 0x1680
    || (0x2000 ≤ n && n ≤ 0x200a) || n == 0x2028 || n == 0x2029 || n == 0x202f || n == 0x205f
    || n == 0x3000

/-- The characters of `s` that are not `isBlank`. -/
def squeeze (s : String) : List Char :=
  s.toList.filter (!isBlank ·)

/-- Whether `s`, its white space apart, spells `word`. -/
def spellsOut (s word : String) : Bool :=
  squeeze s == word.toList

end ArrowLint.Text
