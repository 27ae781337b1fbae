/-
  ArrowLint.Text.Bytes

  Texts as bytes. Every offset the linter handles counts bytes of the UTF-8 form of a
  text, and a fix replaces a range of bytes, so a source is taken apart and put together
  in this form. `text?_ofText` says that nothing is lost on the way there and back, and
  `text?_eq_some_iff` that no two sequences of bytes are read as one text; bytes that are
  no UTF-8 have none.
-/

namespace ArrowLint

/-- A sequence of bytes. -/
abbrev Bytes := List UInt8

namespace Bytes

/-- The UTF-8 form of `s`. -/
def ofText (s : String) : Bytes :=
  s.toByteArray.data.toList

/-- The text whose UTF-8 form is `b`, if there is one. -/
def text? (b : Bytes) : Option String :=
  String.fromUTF8? b.toByteArray

/-- The bytes from offset `start` up to offset `stop`; none when the two are out of order. -/
def slice (b : Bytes) (start stop : Nat) : Bytes :=
  (b.drop start).take (stop - start)

/-- Reading the UTF-8 form of `s` gives `s` back. -/
theorem text?_ofText (s : String) : text? (ofText s) = some s := by
  have h : s.toByteArray.data.toList.toByteArray = s.toByteArray := by
    apply ByteArray.ext
    simp
  simp only [text?, ofText, h, String.fromUTF8?]
  rw [dif_pos s.isValidUTF8]
  rfl

/-- The bytes `b` are read as `s` just when they are its UTF-8 form. -/
theorem text?_eq_some_iff {b : Bytes} {s : String} : text? b = some s ↔ ofText s = b := by
  constructor
  · intro h
    unfold text? String.fromUTF8? at h
    split at h
    · obtain rfl := Option.some.inj h
      simp [ofText, String.fromUTF8]
    · contradiction
  · rintro rfl
    exact text?_ofText s

/-- The byte that ends a line. -/
def newline : UInt8 := 10

/-- The number of lines that end before an `offset`. -/
def rowAt (b : Bytes) (offset : Nat) : Nat :=
  (b.take offset).count newline

/-- The number of bytes between the start of its line and an `offset`. Offsets beyond the end count
    on along the last line. -/
def columnAt (b : Bytes) (offset : Nat) : Nat :=
  ((b.take offset).reverse.takeWhile (· != newline)).length + (offset - b.length)

end Bytes

end ArrowLint
