/-
  ArrowLint.Value.JsonReader

  Reading JSON documents. The keys of a table keep their order, and a number with a
  fraction or a power of ten stays apart from a whole number.

  Every reader takes the characters ahead of it and gives a value with the characters
  that are left. The readers that call one another count down a fuel that starts at the
  number of characters, and each of their calls uses up at least one character.
-/

import ArrowLint.Value.Basic

namespace ArrowLint.Json

/-- The rest of `cs` after white space. -/
def skipBlanks (cs : List Char) : List Char :=
  cs.dropWhile fun c => c == ' ' || c == '\n' || c == '\r' || c == '\t'

/-- The value of a hexadecimal digit, in either case. -/
def hexValue? (c : Char) : Option Nat :=
  let n := c.toNat
  if 0x30 ≤ n && n ≤ 0x39 then some (n - 0x30)
  else if 0x61 ≤ n && n ≤ 0x66 then some (n - 0x57)
  else if 0x41 ≤ n && n ≤ 0x46 then some (n - 0x37)
  else none

/-- Four hexadecimal digits, as the number of a unit. -/
def readUnit : List Char → Option (Nat × List Char)
  | a :: b :: c :: d :: rest => do
    let a ← hexValue? a
    let b ← hexValue? b
    let c ← hexValue? c
    let d ← hexValue? d
    some (((a * 16 + b) * 16 + c) * 16 + d, rest)
  | _ => none

/-- The character that a letter after a backslash stands for, `u` apart. -/
def unescape? : Char → Option Char
  | '\x22' => some '\x22'
  | '\\' => some '\\'
  | '/' => some '/'
  | 'b' => some '\x08'
  | 'f' => some '\x0c'
  | 'n' => some '\n'
  | 'r' => some '\r'
  | 't' => some '\t'
  | _ => none

/-- A character written by its number: one unit, or a high and a low one (`readUnit`). -/
def readNumbered (cs : List Char) : Option (Char × List Char) := do
  let (high, rest) ← readUnit cs
  if 0xd800 ≤ high && high < 0xdc00 then
    match rest with
    | '\\' :: 'u' :: more => do
      let (low, rest) ← readUnit more
      some (Char.ofNat (0x10000 + (high - 0xd800) * 0x400 + (low - 0xdc00)), rest)
    | _ => none
  else some (Char.ofNat high, rest)

/-- The characters of a text up to its closing mark, in reverse on top of those already `read`. -/
def readText : (fuel : Nat) → (read : List Char) → List Char → Option (String × List Char)
  | 0, _, _ => none
  | _ + 1, read, '\x22' :: rest => some (String.ofList read.reverse, rest)
  | fuel + 1, read, '\\' :: 'u' :: rest =>
    match readNumbered rest with
    | some (c, rest) => readText fuel (c :: read) rest
    | none => none
  | fuel + 1, read, '\\' :: c :: rest =>
    match unescape? c with
    | some c => readText fuel (c :: read) rest
    | none => none
  | fuel + 1, read, c :: rest => readText fuel (c :: read) rest
  | _ + 1, _, [] => none

/-- The number that the digits `cs` write. -/
def digitsValue (cs : List Char) : Nat :=
  cs.foldl (fun n c => 10 * n + (c.toNat - 0x30)) 0

/-- A power of ten, if one is written here, and the rest. -/
def readExponent : List Char → Option Int × List Char
  | c :: rest =>
    if c == 'e' || c == 'E' then
      let (isNegative, rest) :=
        match rest with
        | '-' :: rest => (true, rest)
        | '+' :: rest => (false, rest)
        | rest => (false, rest)
      let n : Int := digitsValue (rest.takeWhile Char.isDigit)
      (some (if isNegative then -n else n), rest.dropWhile Char.isDigit)
    else (none, c :: rest)
  | [] => (none, [])

/-- A number, as an `int` or as a `decimal` if it has a point or a power of ten. -/
def readNumber (cs : List Char) : Option (Value × List Char) :=
  let (isNegative, cs) :=
    match cs with
    | '-' :: rest => (true, rest)
    | rest => (false, rest)
  let whole := cs.takeWhile Char.isDigit
  let rest := cs.dropWhile Char.isDigit
  if whole.isEmpty then none
  else
    let (fraction, rest) :=
      match rest with
      | '.' :: rest => (some (rest.takeWhile Char.isDigit), rest.dropWhile Char.isDigit)
      | rest => (none, rest)
    let (exponent, rest) := readExponent rest
    if fraction.isNone && exponent.isNone then
      let n : Int := digitsValue whole
      some (.int (if isNegative then -n else n), rest)
    else
      let fraction := fraction.getD []
      some (.decimal ⟨isNegative, digitsValue (whole ++ fraction),
        exponent.getD 0 - fraction.length⟩, rest)

mutual

/-- A value of any kind, behind white space. -/
def readValue : (fuel : Nat) → List Char → Option (Value × List Char)
  | 0, _ => none
  | fuel + 1, cs =>
    match skipBlanks cs with
    | '\x22' :: rest => (readText (rest.length + 1) [] rest).map fun (s, rest) => (.text s, rest)
    | '[' :: rest =>
      match skipBlanks rest with
      | ']' :: rest => some (.list [], rest)
      | rest => (readItems fuel [] rest).map fun (items, rest) => (.list items, rest)
    | '\x7b' :: rest =>
      match skipBlanks rest with
      | '\x7d' :: rest => some (.table [], rest)
      | rest => (readEntries fuel [] rest).map fun (entries, rest) =>
          (.table (Table.ofEntries entries), rest)
    | 't' :: 'r' :: 'u' :: 'e' :: rest => some (.bool true, rest)
    | 'f' :: 'a' :: 'l' :: 's' :: 'e' :: rest => some (.bool false, rest)
    | 'n' :: 'u' :: 'l' :: 'l' :: rest => some (.null, rest)
    | rest => readNumber rest

/-- The items of a list up to its closing bracket, on top of those already `read`. -/
def readItems : (fuel : Nat) → (read : List Value) → List Char → Option (List Value × List Char)
  | 0, _, _ => none
  | fuel + 1, read, cs =>
    match readValue fuel cs with
    | none => none
    | some (item, rest) =>
      match skipBlanks rest with
      | ',' :: rest => readItems fuel (item :: read) rest
      | ']' :: rest => some ((item :: read).reverse, rest)
      | _ => none

/-- The entries of a table up to its closing brace, on top of those already `read`. -/
def readEntries : (fuel : Nat) → (read : List (String × Value)) → List Char →
    Option (List (String × Value) × List Char)
  | 0, _, _ => none
  | fuel + 1, read, cs =>
    match skipBlanks cs with
    | '\x22' :: rest =>
      match readText (rest.length + 1) [] rest with
      | none => none
      | some (key, rest) =>
        match skipBlanks rest with
        | ':' :: rest =>
          match readValue fuel rest with
          | none => none
          | some (value, rest) =>
            match skipBlanks rest with
            | ',' :: rest => readEntries fuel ((key, value) :: read) rest
            | '\x7d' :: rest => some (((key, value) :: read).reverse, rest)
            | _ => none
        | _ => none
    | _ => none

end

/-- The value that the document `s` holds, if it holds just one. -/
def parse? (s : String) : Option Value :=
  match readValue (s.length + 1) s.toList with
  | some (v, rest) => if (skipBlanks rest).isEmpty then some v else none
  | none => none

end ArrowLint.Json
