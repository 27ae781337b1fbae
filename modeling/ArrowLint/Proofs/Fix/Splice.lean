/-
  ArrowLint.Proofs.Fix.Splice

  What comes out when fixes are made. They are made from the last to the first, each of them
  in bytes that the later ones have changed, and all the same the outcome is said of the
  source alone.

    * `Fix.weave` goes through the source from the front: the bytes between two ranges stay,
      and the new texts stand in the place of the ranges;
    * `Fix.spliceAll_eq_weave`: if every range lies in the source, this is what comes out;
    * `Fix.spliceAll_eq_error`: if one does not, the last that does not is found out, however
      much the source has grown or shrunk by then;
    * `Fix.exists_ofText_eq_weave`: between boundaries, texts for texts leave a text.
-/

import ArrowLint.Fix.Splice
import ArrowLint.Proofs.Fix.Selection
import ArrowLint.Proofs.Text.Boundary

namespace ArrowLint

theorem Span.fits_iff {s : Span} {size : Nat} :
    s.fits size = true ↔ 0 ≤ s.start ∧ s.stop ≤ size ∧ s.start ≤ s.stop := by
  simp [fits, and_assoc]

namespace Fix

variable {data : Bytes} {f : Fix} {fs : List Fix} {last : Int}

/-- The bytes of `data` from `last` on with fixes made that come one behind the other: what lies
    ahead of a range, the text for the range, and what comes behind it. -/
def weave (data : Bytes) : (last : Nat) → List Fix → Bytes
  | last, [] => data.drop last
  | last, f :: fs =>
    data.slice last f.span.start.toNat ++ Bytes.ofText f.text ++ weave data f.span.stop.toNat fs

/-- The bytes up to `start` and the slice from there to `stop` are those up to `stop`. -/
theorem take_append_slice {start stop : Nat} (h : start ≤ stop) :
    data.take start ++ data.slice start stop = data.take stop := by
  rw [Bytes.slice, ← List.take_append_drop start (data.take stop), List.take_take,
    Nat.min_eq_left h, List.drop_take]

theorem spliceAll_cons :
    spliceAll data (f :: fs) = (spliceAll data fs).bind (splice · f) := rfl

/-! ## Ranges in the source -/

/-- A span that ends no later than the bytes of `data` in front of `rest` fits there just when it
    fits `data`. -/
theorem fits_append_iff {s : Span} (rest : Bytes) (h : s.stop ≤ data.length) :
    s.fits (data.take s.stop.toNat ++ rest).length = true ↔ s.fits data.length = true := by
  have hlen : (data.take s.stop.toNat ++ rest).length = s.stop.toNat + rest.length := by
    rw [List.length_append, List.length_take]
    omega
  rw [Span.fits_iff, Span.fits_iff, hlen]
  omega

/-- With the bytes up to the end of a span as they are in `data`, `splice` puts the text between
    what lies ahead of the span and the `rest`. -/
theorem splice_take_append {rest : Bytes} (h : f.span.fits data.length = true) :
    splice (data.take f.span.stop.toNat ++ rest) f
      = .ok (data.take f.span.start.toNat ++ Bytes.ofText f.text ++ rest) := by
  obtain ⟨hstart, hstop, hle⟩ := Span.fits_iff.1 h
  have hfits := (fits_append_iff rest hstop).2 h
  have hlen : (data.take f.span.stop.toNat).length = f.span.stop.toNat := by
    rw [List.length_take]
    omega
  unfold splice
  rw [if_pos hfits, List.take_append_of_le_length (by omega), List.take_take,
    Nat.min_eq_left (by omega), List.drop_append_of_le_length (by omega), List.drop_eq_nil_of_le
    (by omega), List.nil_append]

/-- Fixes whose spans fit `data` leave what lies ahead of `last`, and all that follows is a
    `weave`. -/
theorem spliceAll_eq_weave (h : InOrder last fs)
    (hfits : ∀ f ∈ fs, f.span.fits data.length = true) :
    spliceAll data fs = .ok (data.take last.toNat ++ weave data last.toNat fs) := by
  induction fs generalizing last with
  | nil =>
    rw [weave, List.take_append_drop]
    rfl
  | cons f fs ih =>
    obtain ⟨hlast, hrest⟩ := h
    have hf := hfits f List.mem_cons_self
    -- the later fixes come first, and leave all that lies ahead of the end of this one
    rw [spliceAll_cons, ih hrest fun g hg => hfits g (List.mem_cons_of_mem f hg)]
    show splice _ f = _
    rw [splice_take_append hf, weave, ← List.append_assoc, ← List.append_assoc,
      take_append_slice (by omega)]

/-! ## Ranges out of the source -/

/-- Once the fixes behind it are made, a span fits what has come out just when it fits `data`. -/
theorem fits_woven_iff (h : InOrder f.span.stop fs)
    (hfits : ∀ g ∈ fs, g.span.fits data.length = true) :
    f.span.fits (data.take f.span.stop.toNat ++ weave data f.span.stop.toNat fs).length = true ↔
      f.span.fits data.length = true := by
  cases fs with
  | nil => rw [weave, List.take_append_drop]
  | cons g gs =>
    -- the range ends ahead of another one that lies in the source
    have hg := Span.fits_iff.1 (hfits g List.mem_cons_self)
    have hfg : f.span.stop ≤ g.span.start := h.1
    exact fits_append_iff _ (by omega)

/-- If some span does not fit `data`, `spliceAll` fails with `outside`. -/
theorem spliceAll_eq_error (h : InOrder last fs)
    (hout : ∃ f ∈ fs, f.span.fits data.length = false) :
    ∃ span size, spliceAll data fs = .error (.outside span size) := by
  induction fs generalizing last with
  | nil =>
    obtain ⟨f, hf, -⟩ := hout
    cases hf
  | cons f fs ih =>
    obtain ⟨-, hrest⟩ := h
    rw [spliceAll_cons]
    by_cases hlater : ∃ g ∈ fs, g.span.fits data.length = false
    · -- it fails before it comes to this fix
      obtain ⟨span, size, he⟩ := ih hrest hlater
      rw [he]
      exact ⟨span, size, rfl⟩
    · have hfits : ∀ g ∈ fs, g.span.fits data.length = true := by
        simpa using hlater
      obtain ⟨g, hg, hgout⟩ := hout
      rcases List.mem_cons.1 hg with rfl | hg
      · -- all later fixes are made, and the range is as wrong in their outcome as in the source
        rw [spliceAll_eq_weave hrest hfits]
        show ∃ span size, splice _ g = .error (.outside span size)
        unfold splice
        rw [if_neg (by rw [fits_woven_iff hrest hfits, hgout]; exact Bool.false_ne_true)]
        exact ⟨_, _, rfl⟩
      · rw [hfits g hg] at hgout
        cases hgout

/-! ## Boundaries -/

/-- Where all spans are drawn at boundaries of `source`, the `weave` is the UTF-8 form of a text. -/
theorem exists_ofText_eq_weave {source : String} {start : Nat} (h : InOrder last fs)
    (hlast : last.toNat = start) (hstart : Bytes.IsBoundary source start)
    (hfits : ∀ f ∈ fs, f.span.fits (Bytes.ofText source).length = true)
    (hbound : ∀ f ∈ fs, Bytes.IsBoundary source f.span.start.toNat ∧
      Bytes.IsBoundary source f.span.stop.toNat) :
    ∃ s, Bytes.ofText s = weave (Bytes.ofText source) start fs := by
  induction fs generalizing last start with
  | nil => exact hstart.exists_ofText_eq_drop
  | cons f fs ih =>
    obtain ⟨hf, hrest⟩ := h
    obtain ⟨hfstart, hfstop⟩ := hbound f List.mem_cons_self
    -- the gap ahead of the range, the new text and what comes behind it are texts
    obtain ⟨gap, hgap⟩ := Bytes.exists_ofText_eq_slice hstart hfstart (by omega)
    obtain ⟨tail, htail⟩ := ih hrest rfl hfstop
      (fun g hg => hfits g (List.mem_cons_of_mem f hg))
      (fun g hg => hbound g (List.mem_cons_of_mem f hg))
    refine ⟨gap ++ f.text ++ tail, ?_⟩
    rw [Bytes.ofText_append, Bytes.ofText_append, hgap, htail, weave]

end Fix

/-! ## All at once -/

section

variable {source : String} {fixes : List Fix}

/-- The equation of `applyFixes` without its branch for the case that no fix is taken. -/
theorem applyFixes_eq (source : String) (fixes : List Fix) :
    applyFixes source fixes =
      match Fix.spliceAll (Bytes.ofText source) (Selection.ofFixes fixes).taken with
      | .error e => .error e
      | .ok data =>
        match Bytes.text? data with
        | some text => .ok { text := text, count := (Selection.ofFixes fixes).taken.length }
        | none => .error .notText := by
  unfold applyFixes
  cases (Selection.ofFixes fixes).taken with
  | nil =>
    show (.ok ⟨source, 0⟩ : Except SpliceError Fixed) =
      match Bytes.text? (Bytes.ofText source) with
      | some text => .ok ⟨text, 0⟩
      | none => .error .notText
    rw [Bytes.text?_ofText]
  | cons f fs => rfl

/-- Fixes whose spans fit the source make the `weave` of it, if that is a text. -/
theorem applyFixes_eq_weave
    (hfits : ∀ f ∈ (Selection.ofFixes fixes).taken,
      f.span.fits (Bytes.ofText source).length = true) :
    applyFixes source fixes =
      match Bytes.text? (Fix.weave (Bytes.ofText source) 0 (Selection.ofFixes fixes).taken) with
      | some text => .ok { text := text, count := (Selection.ofFixes fixes).taken.length }
      | none => .error .notText := by
  have h := Fix.spliceAll_eq_weave (Selection.inOrder_startingAt _ _) hfits
  rw [applyFixes_eq, Selection.ofFixes, h]
  rfl

theorem applyFixes_eq_ok_iff {fixed : Fixed}
    (hfits : ∀ f ∈ (Selection.ofFixes fixes).taken,
      f.span.fits (Bytes.ofText source).length = true) :
    applyFixes source fixes = .ok fixed ↔
      fixed.count = (Selection.ofFixes fixes).taken.length ∧
        Bytes.ofText fixed.text
          = Fix.weave (Bytes.ofText source) 0 (Selection.ofFixes fixes).taken := by
  rw [applyFixes_eq_weave hfits]
  obtain ⟨text, count⟩ := fixed
  cases ht : Bytes.text? (Fix.weave (Bytes.ofText source) 0 (Selection.ofFixes fixes).taken) with
  | none =>
    have hno := Bytes.text?_eq_none_iff.1 ht text
    simp [hno]
  | some woven =>
    have hwoven := Bytes.text?_eq_some_iff.1 ht
    rw [← hwoven]
    constructor
    · intro h
      obtain ⟨rfl, rfl⟩ := Fixed.mk.inj (Except.ok.inj h)
      exact ⟨rfl, rfl⟩
    · rintro ⟨hcount, htext⟩
      obtain rfl := Bytes.ofText_injective htext
      obtain rfl : count = (Selection.ofFixes fixes).taken.length := hcount
      rfl

theorem applyFixes_eq_notText_iff
    (hfits : ∀ f ∈ (Selection.ofFixes fixes).taken,
      f.span.fits (Bytes.ofText source).length = true) :
    applyFixes source fixes = .error .notText ↔ ¬ ∃ text, Bytes.ofText text
      = Fix.weave (Bytes.ofText source) 0 (Selection.ofFixes fixes).taken := by
  rw [applyFixes_eq_weave hfits, not_exists, ← Bytes.text?_eq_none_iff]
  split
  · next ht => simp [ht]
  · next ht => simp [ht]

theorem applyFixes_eq_outside_iff :
    (∃ span size, applyFixes source fixes = .error (.outside span size)) ↔
      ∃ f ∈ (Selection.ofFixes fixes).taken, f.span.fits (Bytes.ofText source).length = false := by
  by_cases hout : ∃ f ∈ (Selection.ofFixes fixes).taken,
      f.span.fits (Bytes.ofText source).length = false
  · obtain ⟨span, size, he⟩ := Fix.spliceAll_eq_error (Selection.inOrder_startingAt _ _) hout
    rw [applyFixes_eq, Selection.ofFixes, he]
    exact iff_of_true ⟨span, size, rfl⟩ hout
  · refine iff_of_false ?_ hout
    rintro ⟨span, size, h⟩
    rw [applyFixes_eq_weave (by simpa using hout)] at h
    split at h
    · cases h
    · cases h

/-- Fixes between boundaries of a source can always be applied. -/
theorem exists_applyFixes
    (hfits : ∀ f ∈ (Selection.ofFixes fixes).taken,
      f.span.fits (Bytes.ofText source).length = true)
    (hbound : ∀ f ∈ (Selection.ofFixes fixes).taken,
      Bytes.IsBoundary source f.span.start.toNat ∧ Bytes.IsBoundary source f.span.stop.toNat) :
    ∃ fixed, applyFixes source fixes = .ok fixed := by
  obtain ⟨text, htext⟩ := Fix.exists_ofText_eq_weave (Selection.inOrder_startingAt _ _) rfl
    (Bytes.isBoundary_zero source) hfits hbound
  exact ⟨⟨text, _⟩, (applyFixes_eq_ok_iff hfits).2 ⟨rfl, htext⟩⟩

/-- Applying a single fix puts its text in the place of its span. -/
theorem applyFixes_of_taken {f : Fix} {x y z : String}
    (h : (Selection.ofFixes fixes).taken = [f])
    (hspan : f.span = ⟨(Bytes.ofText x).length, (Bytes.ofText (x ++ y)).length⟩) :
    applyFixes (x ++ y ++ z) fixes = .ok ⟨x ++ f.text ++ z, 1⟩ := by
  have hfits : f.span.fits (Bytes.ofText (x ++ y ++ z)).length = true := by
    rw [Span.fits_iff, hspan]
    simp only [Bytes.ofText_append, List.length_append]
    omega
  have htake : (Bytes.ofText (x ++ y ++ z)).take (Bytes.ofText x).length = Bytes.ofText x := by
    rw [String.append_assoc, Bytes.ofText_append, List.take_left]
  have hdrop : (Bytes.ofText (x ++ y ++ z)).drop (Bytes.ofText (x ++ y)).length
      = Bytes.ofText z := by
    rw [Bytes.ofText_append (x ++ y), List.drop_left]
  have hsplice : Fix.spliceAll (Bytes.ofText (x ++ y ++ z)) [f]
      = .ok (Bytes.ofText (x ++ f.text ++ z)) := by
    show Fix.splice (Bytes.ofText (x ++ y ++ z)) f = _
    rw [Fix.splice, if_pos hfits, hspan]
    dsimp only
    rw [Int.toNat_natCast, Int.toNat_natCast, htake, hdrop, Bytes.ofText_append,
      Bytes.ofText_append]
  rw [applyFixes_eq, h, hsplice]
  simp only [Bytes.text?_ofText]
  rfl

/-- The call `applyFixes source fixes` fails with `outside` just when some span that is taken does
    not fit the source as it was. If all do, what comes out is the `weave` of the source, provided
    that this is a text; and it is where all spans are drawn at boundaries. -/
theorem applyFixes_spec (source : String) (fixes : List Fix) :
    ((∃ span size, applyFixes source fixes = .error (.outside span size)) ↔
      ∃ f ∈ (Selection.ofFixes fixes).taken, f.span.start < 0 ∨
        ((Bytes.ofText source).length : Int) < f.span.stop ∨ f.span.stop < f.span.start) ∧
    ((∀ f ∈ (Selection.ofFixes fixes).taken, 0 ≤ f.span.start ∧
        f.span.stop ≤ ((Bytes.ofText source).length : Int) ∧ f.span.start ≤ f.span.stop) →
      (∀ fixed, applyFixes source fixes = .ok fixed ↔
        fixed.count = (Selection.ofFixes fixes).taken.length ∧
          Bytes.ofText fixed.text
            = Fix.weave (Bytes.ofText source) 0 (Selection.ofFixes fixes).taken) ∧
      (applyFixes source fixes = .error .notText ↔ ¬ ∃ text, Bytes.ofText text
        = Fix.weave (Bytes.ofText source) 0 (Selection.ofFixes fixes).taken) ∧
      ((∀ f ∈ (Selection.ofFixes fixes).taken, Bytes.IsBoundary source f.span.start.toNat ∧
          Bytes.IsBoundary source f.span.stop.toNat) →
        ∃ fixed, applyFixes source fixes = .ok fixed)) := by
  have hout : ∀ s : Span, s.fits (Bytes.ofText source).length = false ↔
      s.start < 0 ∨ ((Bytes.ofText source).length : Int) < s.stop ∨ s.stop < s.start := by
    intro s
    rw [← Bool.not_eq_true, Span.fits_iff]
    omega
  refine ⟨?_, fun hin => ?_⟩
  · rw [applyFixes_eq_outside_iff]
    simp only [hout]
  · have hfits : ∀ f ∈ (Selection.ofFixes fixes).taken,
        f.span.fits (Bytes.ofText source).length = true :=
      fun f hf => Span.fits_iff.2 (hin f hf)
    exact ⟨fun fixed => applyFixes_eq_ok_iff hfits, applyFixes_eq_notText_iff hfits,
      exists_applyFixes hfits⟩

/-- Two of the three characters of `aéb` go, and what is put in for one of them is longer; a span
    that runs beyond the source is refused. -/
theorem applyFixes_threeCharacters :
    applyFixes "aéb" [⟨⟨1, 3⟩, "xyz"⟩, ⟨⟨3, 4⟩, ""⟩] = .ok ⟨"axyz", 2⟩ ∧
      ∃ span size, applyFixes "aéb" [⟨⟨1, 3⟩, "xyz"⟩, ⟨⟨3, 5⟩, ""⟩]
        = .error (.outside span size) := by
  have hin : (Selection.ofFixes [⟨⟨1, 3⟩, "xyz"⟩, ⟨⟨3, 4⟩, ""⟩]).taken
      = [⟨⟨1, 3⟩, "xyz"⟩, ⟨⟨3, 4⟩, ""⟩] := by
    rw [Selection.ofFixes_of_pairwise (by decide)]
    rfl
  have hout : (Selection.ofFixes [⟨⟨1, 3⟩, "xyz"⟩, ⟨⟨3, 5⟩, ""⟩]).taken
      = [⟨⟨1, 3⟩, "xyz"⟩, ⟨⟨3, 5⟩, ""⟩] := by
    rw [Selection.ofFixes_of_pairwise (by decide)]
    rfl
  refine ⟨?_, ?_⟩
  · refine (((applyFixes_spec "aéb" [⟨⟨1, 3⟩, "xyz"⟩, ⟨⟨3, 4⟩, ""⟩]).2 ?_).1 ⟨"axyz", 2⟩).2 ?_
    · rw [hin]
      decide
    · rw [hin]
      decide
  · rw [(applyFixes_spec "aéb" _).1, hout]
    decide

end

end ArrowLint
