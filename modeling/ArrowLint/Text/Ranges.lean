/-
  ArrowLint.Text.Ranges

  Classes of characters as tables: a table lists the ranges of code points that make up
  the class, the ends of each included.
-/

namespace ArrowLint.Text

/-- Whether `c` lies in one of the `ranges`, both ends included. -/
def isWithin (ranges : List (Nat × Nat)) (c : Char) : Bool :=
  ranges.any fun (first, last) => first ≤ c.toNat && c.toNat ≤ last

/-- A character `isWithin` a table just when some range of it reaches around the character. -/
theorem isWithin_iff {ranges : List (Nat × Nat)} {c : Char} :
    isWithin ranges c = true ↔ ∃ r ∈ ranges, r.1 ≤ c.toNat ∧ c.toNat ≤ r.2 := by
  simp [isWithin]

end ArrowLint.Text
