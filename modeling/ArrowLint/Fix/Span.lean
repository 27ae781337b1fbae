/-
  ArrowLint.Fix.Span

  Ranges of bytes and what is put in their place. Offsets are whole numbers of either
  sign: whether a range lies in a source is asked when the source is at hand.
-/

namespace ArrowLint

/-- The bytes from the offset `start` up to `stop`. -/
structure Span where
  start : Int
  stop : Int
  deriving DecidableEq

/-- Whether each of two spans starts ahead of the end of the other. -/
def Span.overlaps (a b : Span) : Bool :=
  a.start < b.stop && b.start < a.stop

/-- A `span` and the `text` to put in its place. -/
structure Fix where
  span : Span
  text : String
  deriving DecidableEq

end ArrowLint
