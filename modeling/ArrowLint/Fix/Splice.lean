/-
  ArrowLint.Fix.Splice

  Putting new texts in place of ranges of a source. The ranges are in source order and
  are dealt with from the last to the first, so that the offsets of those still to come
  stay good.
-/

import ArrowLint.Fix.Selection
import ArrowLint.Text.Bytes

namespace ArrowLint

/-- Why `applyFixes` has no result. -/
inductive SpliceError where
  /-- A `span` that does not lie in the source, which has `size` bytes by then. -/
  | outside (span : Span) (size : Nat)
  /-- The bytes that come out are no UTF-8. -/
  | notText
  deriving DecidableEq

/-- The wording of a `SpliceError`. -/
def SpliceError.message : SpliceError → String
  | .outside span size =>
    "Fix range [" ++ toString span.start ++ ", " ++ toString span.stop ++ ") outside source of "
      ++ toString size ++ " bytes"
  | .notText => "the result is no text"

/-- Whether a span lies in `size` bytes, with its ends in order. -/
def Span.fits (s : Span) (size : Nat) : Bool :=
  0 ≤ s.start && s.stop ≤ size && s.start ≤ s.stop

namespace Fix

/-- The bytes with one `fix` made, if its span `fits`. -/
def splice (data : Bytes) (fix : Fix) : Except SpliceError Bytes :=
  if fix.span.fits data.length then
    .ok (data.take fix.span.start.toNat ++ Bytes.ofText fix.text ++ data.drop fix.span.stop.toNat)
  else .error (.outside fix.span data.length)

/-- The bytes with `fixes` made from the last to the first, so that the offsets of those ahead stay
    right. -/
def spliceAll (data : Bytes) (fixes : List Fix) : Except SpliceError Bytes :=
  fixes.foldr (fun fix data => data.bind (splice · fix)) (.ok data)

end Fix

/-- A source after one pass of fixing, with the number of fixes made. -/
structure Fixed where
  text : String
  /-- How many fixes have been made, `0` where nothing was `taken`. -/
  count : Nat
  deriving DecidableEq

/-- Makes the fixes that `Selection.ofFixes` takes; without one, `source` is left as it is. -/
def applyFixes (source : String) (fixes : List Fix) : Except SpliceError Fixed :=
  match (Selection.ofFixes fixes).taken with
  | [] => .ok { text := source, count := 0 }
  | taken =>
    match Fix.spliceAll (Bytes.ofText source) taken with
    | .error e => .error e
    | .ok data =>
      match Bytes.text? data with
      | some text => .ok { text := text, count := taken.length }
      | none => .error .notText

end ArrowLint
