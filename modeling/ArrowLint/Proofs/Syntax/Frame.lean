/-
  ArrowLint.Proofs.Syntax.Frame

  Phrases with a hole. A frame is what stands around one part of a phrase, so that a phrase can be
  exchanged for another one in its place, however deep in a source that is (`Frame.fillAll`).

    * `Frame.text_fillAll`: the text of frames that are filled is the text of the filling between
      two texts that do not depend on it;
    * `Node.IsAt n p source start` says that the node `n` is the phrase `p` at an offset of a
      source, and `Node.IsAt.exists_hole` finds the filling of a frame among the children.
-/

import ArrowLint.Fix.Render
import ArrowLint.Proofs.Syntax.Phrase

namespace ArrowLint

namespace Phrase

@[simp] theorem seated_seated (p : Phrase) (s t : Seat) : (p.seated s).seated t = p.seated t := rfl

@[simp] theorem seated_seat (p : Phrase) : p.seated p.seat = p := by
  cases p
  rfl

@[simp] theorem isStatement_seated (p : Phrase) (s : Seat) :
    (p.seated s).isStatement = p.isStatement := rfl

theorem forall_mem_walk_iff {p : Phrase} {P : Phrase → Prop} :
    (∀ q ∈ p.walk, P q) ↔ P p ∧ ∀ q ∈ p.parts, ∀ r ∈ q.walk, P r := by
  rw [walk_eq]
  simp only [List.mem_cons, List.mem_flatMap, forall_eq_or_imp, forall_exists_index, and_imp]
  exact and_congr_right fun _ => ⟨fun h q hq r hr => h r q hq hr, fun h r q hq hr => h q hq r hr⟩

/-- How `p` is held makes no difference for what holds of all of `p.walk`. -/
theorem forall_mem_walk_seated {p : Phrase} {s : Seat} {P : Phrase → Prop}
    (hP : P (p.seated s) ↔ P p) : (∀ q ∈ (p.seated s).walk, P q) ↔ ∀ q ∈ p.walk, P q := by
  rw [forall_mem_walk_iff, forall_mem_walk_iff, hP, parts_seated]

theorem trees_append (source : Bytes) (start : Nat) (ps qs : List Phrase) :
    trees source start (ps ++ qs)
      = trees source start ps ++ trees source (start + (Bytes.ofText (joined ps)).length) qs := by
  induction ps generalizing start with
  | nil =>
    rw [List.nil_append, joined, Bytes.ofText_empty]
    rfl
  | cons p ps ih =>
    rw [List.cons_append, trees, trees, ih, joined_cons, Bytes.ofText_append, List.length_append,
      Nat.add_assoc, List.cons_append]

end Phrase

/-- A phrase without one of its parts: what stands `before` that part and `after` it, and how the
    part is held. -/
structure Frame where
  kind : Kind
  isNamed : Bool := true
  before : List Phrase := []
  hole : Seat := {}
  after : List Phrase := []
  own : String := ""

namespace Frame

open Phrase

/-! ## Filling -/

/-- The frame with the phrase `p` for the part that it lacks. -/
def fill (f : Frame) (p : Phrase) : Phrase :=
  .node {} f.kind f.isNamed (f.before ++ p.seated f.hole :: f.after) f.own

/-- Frames around frames with the phrase `p` in the innermost, the outermost first. -/
def fillAll (fs : List Frame) (p : Phrase) : Phrase :=
  fs.foldr fill p

/-- The text of a frame ahead of its filling. -/
def front (f : Frame) : String :=
  joined f.before ++ f.hole.lead

/-- The text of a frame behind its filling. -/
def back (f : Frame) : String :=
  joined f.after ++ f.own

/-- The text of frames ahead of the filling of the innermost. -/
def frontAll : List Frame → String
  | [] => ""
  | f :: fs => f.front ++ frontAll fs

/-- The text of frames behind the filling of the innermost. -/
def backAll : List Frame → String
  | [] => ""
  | f :: fs => backAll fs ++ f.back

@[simp] theorem kind_fill (f : Frame) (p : Phrase) : (f.fill p).kind = f.kind := rfl

@[simp] theorem isNamed_fill (f : Frame) (p : Phrase) : (f.fill p).isNamed = f.isNamed := rfl

@[simp] theorem parts_fill (f : Frame) (p : Phrase) :
    (f.fill p).parts = f.before ++ p.seated f.hole :: f.after := rfl

theorem fillAll_cons (f : Frame) (fs : List Frame) (p : Phrase) :
    fillAll (f :: fs) p = f.fill (fillAll fs p) := rfl

theorem text_fill (f : Frame) (p : Phrase) : (f.fill p).text = f.front ++ p.text ++ f.back := by
  rw [text_eq, parts_fill, joined_append, joined_cons, full, text_seated, seat_seated, front, back]
  simp only [String.append_assoc]
  rfl

theorem statements_fill (f : Frame) {p : Phrase} (hp : p.isStatement = true) :
    (f.fill p).statements
      = f.before.filter isStatement ++ p.seated f.hole :: f.after.filter isStatement := by
  rw [statements, parts_fill, List.filter_append, List.filter_cons_of_pos (by simpa using hp)]

theorem text_fillAll (fs : List Frame) (p : Phrase) :
    (fillAll fs p).text = frontAll fs ++ p.text ++ backAll fs := by
  induction fs with
  | nil => simp [fillAll, frontAll, backAll]
  | cons f fs ih =>
    rw [fillAll_cons, text_fill, ih, frontAll, backAll]
    simp only [String.append_assoc]

end Frame

namespace Node

open Phrase

variable {n m : Node} {f : Frame} {p : Phrase} {source : Bytes} {start : Nat}

/-! ## Places -/

/-- Whether `n` is the phrase `p` at the offset `start` of a source, however it is held. -/
def IsAt (n : Node) (p : Phrase) (source : Bytes) (start : Nat) : Prop :=
  ∃ seat, n.tree = (p.seated seat).tree source start

theorem IsAt.exists_shows (h : n.IsAt p source start) : ∃ seat, n.Shows (p.seated seat) := by
  obtain ⟨seat, h⟩ := h
  exact ⟨seat, source, start, h⟩

theorem IsAt.kind_eq (h : n.IsAt p source start) : n.kind = p.kind := by
  obtain ⟨seat, hs⟩ := h.exists_shows
  exact hs.kind_eq

theorem IsAt.span_eq (h : n.IsAt p source start) :
    n.span = ⟨start, start + (Bytes.ofText p.text).length⟩ := by
  obtain ⟨seat, h⟩ := h
  rw [span, Node.start, Node.stop, label_of_tree h, Phrase.label, text_seated, Int.natCast_add]

theorem IsAt.children (h : n.IsAt p source start) : List.Forall₂ Shows n.children p.parts := by
  obtain ⟨seat, hs⟩ := h.exists_shows
  exact hs.children

theorem isAt_parse (p : Phrase) :
    (root p.parse).IsAt p (Bytes.ofText p.full) (Bytes.ofText p.seat.lead).length :=
  ⟨p.seat, by rw [seated_seat]; rfl⟩

/-- Among the children of a node at `f.fill p` there is one at `p`, between those that show the
    other parts. -/
theorem IsAt.exists_hole (h : n.IsAt (f.fill p) source start) :
    ∃ passed m rest, n.children = passed ++ m :: rest ∧
      m.IsAt p source (start + (Bytes.ofText f.front).length) ∧
      List.Forall₂ Shows passed f.before ∧ List.Forall₂ Shows rest f.after := by
  obtain ⟨seat, h⟩ := h
  have htrees := n.children_map_tree
  rw [h, children_tree, parts_seated, Frame.parts_fill, trees_append, List.map_eq_append_iff]
    at htrees
  obtain ⟨passed, others, hchildren, hpassed, hothers⟩ := htrees
  obtain ⟨m, rest, rfl, hm, hrest⟩ := List.map_eq_cons_iff.1 hothers
  refine ⟨passed, m, rest, hchildren, ⟨f.hole, ?_⟩, forall₂_shows_of_map_tree hpassed,
    forall₂_shows_of_map_tree hrest⟩
  rw [hm, seat_seated, Frame.front, Bytes.ofText_append, List.length_append, Nat.add_assoc]

end Node

end ArrowLint
