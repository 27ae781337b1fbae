/-
  ArrowLint.Proofs.Syntax.Phrase

  Trees drawn from texts. A phrase is a piece of source as a grammar takes it apart: a kind, the
  phrases it is made of with what stands between them, and what comes behind the last of these.
  A phrase does not say where it stands, so the same one can be put into many sources; its tree
  is drawn when the source is known.

    * `Phrase.isParseOf_parse`: the tree of a phrase is a parse of its text;
    * `Node.Shows n p` says that the node `n` is the phrase `p` in some place, and one lemma for
      each question about the node answers it from the phrase;
    * `Parser.ofPhrases` knows the sources of some phrases, and is faithful.
-/

import Mathlib.Data.List.Forall2
import ArrowLint.Proofs.Fallible
import ArrowLint.Proofs.Syntax.Parsed

namespace ArrowLint

/-- How a phrase stands in the one around it: the text `lead` between it and the phrase ahead of it,
    and the `fields` under which it is held. -/
structure Seat where
  lead : String := ""
  fields : List Field := []
  deriving DecidableEq

/-- A piece of source as a grammar takes it apart. A phrase without `parts` is a token. -/
inductive Phrase where
  | node (seat : Seat) (kind : Kind) (isNamed : Bool) (parts : List Phrase) (own : String)

namespace Phrase

/-! ## Parts and texts -/

/-- How a phrase stands in the one around it. -/
def seat : Phrase → Seat
  | .node seat _ _ _ _ => seat

/-- The `Kind` of a phrase. -/
def kind : Phrase → Kind
  | .node _ kind _ _ _ => kind

/-- Whether the grammar gives the phrase a name of its own. -/
def isNamed : Phrase → Bool
  | .node _ _ isNamed _ _ => isNamed

/-- The phrases that a phrase is made of. -/
def parts : Phrase → List Phrase
  | .node _ _ _ parts _ => parts

/-- The text behind the last of the `parts`. -/
def own : Phrase → String
  | .node _ _ _ _ own => own

/-- A keyword or a sign, with `lead` ahead of it. -/
def token (lead text : String) : Phrase :=
  .node ⟨lead, []⟩ (.ofSpelling text) false [] text

/-- The phrase `p` in another `seat`. -/
def seated (p : Phrase) (seat : Seat) : Phrase :=
  .node seat p.kind p.isNamed p.parts p.own

/-- Whether the phrase around `p` holds it under the field `f`. -/
def fills (p : Phrase) (f : Field) : Bool :=
  p.seat.fields.contains f

mutual

/-- The text of a phrase, without its `lead`. -/
def text : Phrase → String
  | .node _ _ _ parts own => joined parts ++ own

/-- The text of neighbouring phrases, with the `lead` of each of them. -/
def joined : List Phrase → String
  | [] => ""
  | p :: ps => p.seat.lead ++ text p ++ joined ps

end

/-- The text of a phrase with its `lead`. -/
def full (p : Phrase) : String :=
  p.seat.lead ++ p.text

mutual

/-- A phrase and all that it is made of, in pre-order. -/
def walk : Phrase → List Phrase
  | .node seat kind isNamed parts own => .node seat kind isNamed parts own :: walkAll parts

/-- Neighbouring phrases and all that they are made of, in pre-order. -/
def walkAll : List Phrase → List Phrase
  | [] => []
  | p :: ps => walk p ++ walkAll ps

end

/-- The first of the `parts` that is held under the field `f`. -/
def field (p : Phrase) (f : Field) : Option Phrase :=
  p.parts.find? (·.fills f)

/-- The text of the part that is held under the field `f`, empty if there is none. -/
def fieldText (p : Phrase) (f : Field) : String :=
  ((p.field f).map text).getD ""

/-- Whether a phrase has a name of its own and is no comment. -/
def isStatement (p : Phrase) : Bool :=
  p.isNamed && !p.kind.isComment

/-- The `parts` with names of their own, comments left out. -/
def statements (p : Phrase) : List Phrase :=
  p.parts.filter isStatement

/-! ## Trees -/

mutual

/-- The `Tree` of a phrase whose text starts at the offset `start` of a source. -/
def tree (source : Bytes) (start : Nat) : Phrase → Tree
  | .node seat kind isNamed parts own =>
    .node {
      kind := kind, isNamed := isNamed
      start := start, stop := start + (Bytes.ofText (joined parts ++ own)).length
      row := source.rowAt start, column := source.columnAt start
      text := some (joined parts ++ own), fields := seat.fields } (trees source start parts)

/-- The trees of neighbouring phrases, with the `lead` of the first at the offset `start`. -/
def trees (source : Bytes) (start : Nat) : List Phrase → List Tree
  | [] => []
  | p :: ps =>
    tree source (start + (Bytes.ofText p.seat.lead).length) p ::
      trees source (start + (Bytes.ofText p.full).length) ps

end

/-- The `Tree` of a phrase that is all of its source. -/
def parse (p : Phrase) : Tree :=
  p.tree (Bytes.ofText p.full) (Bytes.ofText p.seat.lead).length

/-- The `Label` of a phrase whose text starts at the offset `start` of a source. -/
def label (p : Phrase) (source : Bytes) (start : Nat) : Label :=
  { kind := p.kind, isNamed := p.isNamed
    start := start, stop := start + (Bytes.ofText p.text).length
    row := source.rowAt start, column := source.columnAt start
    text := some p.text, fields := p.seat.fields }

theorem label_tree (p : Phrase) (source : Bytes) (start : Nat) :
    (p.tree source start).label = p.label source start := by
  cases p
  rfl

theorem children_tree (p : Phrase) (source : Bytes) (start : Nat) :
    (p.tree source start).children = trees source start p.parts := by
  cases p
  rfl

theorem text_eq (p : Phrase) : p.text = joined p.parts ++ p.own := by
  cases p
  rfl

theorem joined_cons (p : Phrase) (ps : List Phrase) : joined (p :: ps) = p.full ++ joined ps :=
  rfl

theorem joined_append (ps qs : List Phrase) : joined (ps ++ qs) = joined ps ++ joined qs := by
  induction ps with
  | nil => simp [joined]
  | cons p ps ih => rw [List.cons_append, joined_cons, ih, joined_cons, String.append_assoc]

theorem walkAll_eq (ps : List Phrase) : walkAll ps = ps.flatMap walk := by
  induction ps with
  | nil => rfl
  | cons p ps ih => rw [walkAll, ih, List.flatMap_cons]

theorem walk_eq (p : Phrase) : p.walk = p :: p.parts.flatMap walk := by
  cases p
  rw [walk, walkAll_eq]
  rfl

theorem mem_walk_self (p : Phrase) : p ∈ p.walk := by
  rw [walk_eq]
  exact List.mem_cons_self

theorem mem_walk_of_mem_parts {p q r : Phrase} (hq : q ∈ p.parts) (hr : r ∈ q.walk) :
    r ∈ p.walk := by
  rw [walk_eq]
  exact List.mem_cons_of_mem _ (List.mem_flatMap.2 ⟨q, hq, hr⟩)

@[simp] theorem seat_seated (p : Phrase) (s : Seat) : (p.seated s).seat = s := rfl

@[simp] theorem kind_seated (p : Phrase) (s : Seat) : (p.seated s).kind = p.kind := rfl

@[simp] theorem isNamed_seated (p : Phrase) (s : Seat) : (p.seated s).isNamed = p.isNamed := rfl

@[simp] theorem parts_seated (p : Phrase) (s : Seat) : (p.seated s).parts = p.parts := rfl

@[simp] theorem text_seated (p : Phrase) (s : Seat) : (p.seated s).text = p.text := by
  rw [text_eq, text_eq]
  rfl

/-! ## Where the tree of a phrase lies -/

/-- Whether the text of `p` starts at the offset `start` of `source`. -/
def LiesAt (p : Phrase) (source : String) (start : Nat) : Prop :=
  ∃ before after, source = before ++ p.text ++ after ∧ (Bytes.ofText before).length = start

theorem liesAt_full (p : Phrase) : p.LiesAt p.full (Bytes.ofText p.seat.lead).length :=
  ⟨p.seat.lead, "", by simp [full], rfl⟩

theorem LiesAt.isBoundary {p : Phrase} {source : String} {start : Nat}
    (h : p.LiesAt source start) : Bytes.IsBoundary source start ∧
      Bytes.IsBoundary source (start + (Bytes.ofText p.text).length) := by
  obtain ⟨before, after, rfl, rfl⟩ := h
  refine ⟨⟨before, p.text ++ after, String.append_assoc, rfl⟩, before ++ p.text, after, rfl, ?_⟩
  rw [Bytes.ofText_append, List.length_append]

theorem LiesAt.slice {p : Phrase} {source : String} {start : Nat} (h : p.LiesAt source start) :
    (Bytes.ofText source).slice start (start + (Bytes.ofText p.text).length)
      = Bytes.ofText p.text := by
  obtain ⟨before, after, rfl, rfl⟩ := h
  rw [Bytes.slice, Bytes.ofText_append, Bytes.ofText_append, List.append_assoc, List.drop_left,
    Nat.add_sub_cancel_left, List.take_left]

/-- Each tree of neighbouring phrases is that of one which `LiesAt` its place in the source, and
    none is drawn beyond the end of their joined text. -/
theorem exists_of_mem_trees {ps : List Phrase} {source : String} {before after : String} {t : Tree}
    (hs : source = before ++ joined ps ++ after)
    (ht : t ∈ trees (Bytes.ofText source) (Bytes.ofText before).length ps) :
    ∃ q ∈ ps, ∃ start, t = q.tree (Bytes.ofText source) start ∧ q.LiesAt source start ∧
      (Bytes.ofText before).length ≤ start ∧
      start + (Bytes.ofText q.text).length
        ≤ (Bytes.ofText before).length + (Bytes.ofText (joined ps)).length := by
  induction ps generalizing before with
  | nil => cases ht
  | cons p ps ih =>
    rw [joined_cons] at hs
    rcases List.mem_cons.1 ht with rfl | ht
    · refine ⟨p, List.mem_cons_self, _, rfl, ⟨before ++ p.seat.lead, joined ps ++ after, ?_, ?_⟩,
        ?_, ?_⟩
      · rw [hs, full]
        simp only [String.append_assoc]
      · rw [Bytes.ofText_append, List.length_append]
      · omega
      · rw [joined_cons, full]
        simp only [Bytes.ofText_append, List.length_append]
        omega
    · -- the others come behind the first one
      have hlen : (Bytes.ofText (before ++ p.full)).length
          = (Bytes.ofText before).length + (Bytes.ofText p.full).length := by
        rw [Bytes.ofText_append, List.length_append]
      rw [← hlen] at ht
      obtain ⟨q, hq, start, rfl, hlies, hle, hend⟩ :=
        ih (by rw [hs]; simp only [String.append_assoc]) ht
      refine ⟨q, List.mem_cons_of_mem p hq, start, rfl, hlies, by omega, ?_⟩
      rw [joined_cons, Bytes.ofText_append, List.length_append]
      omega

theorem pairwise_trees (source : Bytes) (start : Nat) (ps : List Phrase) :
    (trees source start ps).Pairwise (fun a b => a.label.stop ≤ b.label.start) ∧
      ∀ t ∈ trees source start ps, start ≤ t.label.start := by
  induction ps generalizing start with
  | nil => simp [trees]
  | cons p ps ih =>
    obtain ⟨hpair, hahead⟩ := ih (start + (Bytes.ofText p.full).length)
    have hlen : (Bytes.ofText p.full).length
        = (Bytes.ofText p.seat.lead).length + (Bytes.ofText p.text).length := by
      rw [full, Bytes.ofText_append, List.length_append]
    rw [trees]
    refine ⟨List.pairwise_cons.2 ⟨fun t ht => ?_, hpair⟩, fun t ht => ?_⟩
    · have h := hahead t ht
      rw [label_tree]
      show start + _ + _ ≤ _
      omega
    · rcases List.mem_cons.1 ht with rfl | ht
      · rw [label_tree]
        exact Nat.le_add_right _ _
      · have h := hahead t ht
        omega

end Phrase

namespace Node

open Phrase

variable {n m : Node} {p : Phrase}

/-! ## Nodes that are phrases -/

/-- Whether the tree of `n` is that of the phrase `p`, wherever it stands. -/
def Shows (n : Node) (p : Phrase) : Prop :=
  ∃ source start, n.tree = p.tree source start

theorem label_of_tree {source : Bytes} {start : Nat} (h : n.tree = p.tree source start) :
    n.label = p.label source start := by
  rw [Node.label, h, label_tree]

theorem Shows.kind_eq (h : n.Shows p) : n.kind = p.kind := by
  obtain ⟨source, start, h⟩ := h
  rw [Node.kind, label_of_tree h]
  rfl

theorem Shows.isNamed_eq (h : n.Shows p) : n.label.isNamed = p.isNamed := by
  obtain ⟨source, start, h⟩ := h
  rw [label_of_tree h]
  rfl

theorem Shows.fills_eq (h : n.Shows p) (f : Field) : n.tree.fills f = p.fills f := by
  obtain ⟨source, start, h⟩ := h
  rw [Tree.fills, h, label_tree]
  rfl

theorem Shows.text_eq (h : n.Shows p) : n.text = .ok p.text := by
  obtain ⟨source, start, h⟩ := h
  rw [text_eq_ok_iff, label_of_tree h]
  rfl

theorem forall₂_shows_of_map_tree {nodes : List Node} {ps : List Phrase} {source : Bytes}
    {start : Nat} (h : nodes.map (·.tree) = trees source start ps) :
    List.Forall₂ Shows nodes ps := by
  induction ps generalizing nodes start with
  | nil =>
    obtain rfl := List.map_eq_nil_iff.1 h
    exact .nil
  | cons p ps ih =>
    cases nodes with
    | nil => cases h
    | cons n nodes =>
      obtain ⟨hn, hrest⟩ := List.cons.inj h
      exact .cons ⟨_, _, hn⟩ (ih hrest)

/-- The children of a node that `Shows` a phrase show its parts. -/
theorem Shows.children (h : n.Shows p) : List.Forall₂ Shows n.children p.parts := by
  obtain ⟨source, start, h⟩ := h
  have hc : n.children.map (·.tree) = trees source start p.parts := by
    rw [children_map_tree, h, children_tree]
  exact forall₂_shows_of_map_tree hc

theorem exists_shows_of_mem {nodes : List Node} {ps : List Phrase}
    (h : List.Forall₂ Shows nodes ps) (hn : n ∈ nodes) : ∃ q ∈ ps, n.Shows q := by
  induction h with
  | nil => cases hn
  | cons hfirst _ ih =>
    rcases List.mem_cons.1 hn with rfl | hn
    · exact ⟨_, List.mem_cons_self, hfirst⟩
    · obtain ⟨q, hq, hs⟩ := ih hn
      exact ⟨q, List.mem_cons_of_mem _ hq, hs⟩

/-- What a node contains that `Shows` a phrase shows something in its `walk`. -/
theorem Shows.exists_of_contains (h : n.Shows p) (hm : n.Contains m) :
    ∃ q ∈ p.walk, m.Shows q := by
  induction hm generalizing p with
  | self => exact ⟨p, p.mem_walk_self, h⟩
  | inside child _ ih =>
    obtain ⟨q, hq, hc⟩ := exists_shows_of_mem h.children child
    obtain ⟨r, hr, hs⟩ := ih hc
    exact ⟨r, mem_walk_of_mem_parts hq hr, hs⟩

theorem rel_find? {α β : Type} {R : α → β → Prop} {xs : List α} {ys : List β} {p : α → Bool}
    {q : β → Bool} (h : List.Forall₂ R xs ys) (hpq : ∀ x y, R x y → p x = q y) :
    Option.Rel R (xs.find? p) (ys.find? q) := by
  induction h with
  | nil => exact .none
  | @cons x y xs ys hxy _ ih =>
    rw [List.find?_cons, List.find?_cons, hpq x y hxy]
    split
    · exact .some hxy
    · exact ih

theorem exists_of_rel_some {α β : Type} {R : α → β → Prop} {x : Option α} {b : β}
    (h : Option.Rel R x (some b)) : ∃ a, x = some a ∧ R a b := by
  cases h with
  | some hab => exact ⟨_, rfl, hab⟩

theorem eq_none_of_rel_none {α β : Type} {R : α → β → Prop} {x : Option α}
    (h : Option.Rel R x (none : Option β)) : x = none := by
  cases h
  rfl

theorem Shows.field (h : n.Shows p) (f : Field) : Option.Rel Shows (n.field f) (p.field f) :=
  rel_find? h.children fun _ _ hs => hs.fills_eq f

theorem Shows.exists_field {f : Field} {q : Phrase} (h : n.Shows p) (hq : p.field f = some q) :
    ∃ m, n.field f = some m ∧ m.Shows q := by
  have hrel := h.field f
  rw [hq] at hrel
  exact exists_of_rel_some hrel

theorem Shows.field_eq_none {f : Field} (h : n.Shows p) (hq : p.field f = none) :
    n.field f = none := by
  have hrel := h.field f
  rw [hq] at hrel
  exact eq_none_of_rel_none hrel

theorem Shows.fieldText_eq (h : n.Shows p) (f : Field) :
    n.fieldText f = .ok (p.fieldText f) := by
  unfold Node.fieldText Phrase.fieldText
  cases hq : p.field f with
  | none =>
    rw [h.field_eq_none hq]
    rfl
  | some q =>
    obtain ⟨m, hm, hs⟩ := h.exists_field hq
    rw [hm]
    exact hs.text_eq

theorem Shows.statements (h : n.Shows p) : List.Forall₂ Shows n.statements p.statements := by
  unfold Node.statements Node.namedChildren Phrase.statements
  rw [List.filter_filter]
  refine List.rel_filter (fun {m q} hs => ?_) h.children
  show (!m.kind.isComment && m.label.isNamed) = true ↔ q.isStatement = true
  rw [hs.isNamed_eq, hs.kind_eq, Bool.and_comm, isStatement]

/-! ## Parses -/

/-- What the tree of a phrase contains is a phrase that `LiesAt` the place where it is drawn. -/
theorem exists_liesAt_of_contains {source : String} {start : Nat} (hm : n.Contains m)
    (h : n.tree = p.tree (Bytes.ofText source) start) (hlies : p.LiesAt source start) :
    ∃ (q : Phrase) (start : Nat),
      m.tree = q.tree (Bytes.ofText source) start ∧ q.LiesAt source start := by
  induction hm generalizing p start with
  | self => exact ⟨p, start, h, hlies⟩
  | inside child _ ih =>
    -- the parts lie where their joined text does, which is ahead of what is the phrase's own
    obtain ⟨before, after, hsource, rfl⟩ := hlies
    rw [p.text_eq, ← String.append_assoc, String.append_assoc] at hsource
    have hc := List.mem_map_of_mem (f := Node.tree) child
    rw [children_map_tree, h, children_tree] at hc
    obtain ⟨q, -, start, htree, hq, -⟩ := exists_of_mem_trees hsource hc
    exact ih htree hq

end Node

namespace Phrase

open Node

/-- The tree `p.parse` is a parse of `p.full`. -/
theorem isParseOf_parse (p : Phrase) : p.parse.IsParseOf p.full := by
  rw [Tree.isParseOf_iff]
  intro n hn
  obtain ⟨q, start, htree, hlies⟩ := exists_liesAt_of_contains (mem_walk_iff.1 hn) rfl p.liesAt_full
  have hlabel := label_of_tree htree
  have hstart : n.start = start := by rw [Node.start, hlabel]; rfl
  have hstop : n.stop = start + (Bytes.ofText q.text).length := by rw [Node.stop, hlabel]; rfl
  have htrees := n.children_map_tree
  rw [htree, children_tree] at htrees
  rw [hstart, hstop]
  refine ⟨fun c hc => ?_, ?_, Nat.le_add_right _ _, hlies.isBoundary.1, hlies.isBoundary.2, ?_⟩
  · -- a child is drawn within the joined text of the parts
    obtain ⟨before, after, hsource, rfl⟩ := hlies
    rw [q.text_eq, ← String.append_assoc, String.append_assoc] at hsource
    rw [q.text_eq]
    have hmem := List.mem_map_of_mem (f := Node.tree) hc
    rw [htrees] at hmem
    obtain ⟨r, -, start', hr, -, hle, hend⟩ := exists_of_mem_trees hsource hmem
    have hclabel := label_of_tree hr
    rw [Node.start, Node.stop, hclabel, Bytes.ofText_append, List.length_append]
    show _ ≤ start' ∧ start' + _ ≤ _
    omega
  · have hpair := (pairwise_trees (Bytes.ofText p.full) start q.parts).1
    rw [← htrees, List.pairwise_map] at hpair
    exact hpair
  · rw [hlies.slice, Bytes.text?_ofText, hlabel]
    rfl

end Phrase

/-! ## Parsers that know some sources -/

/-- The parser that knows the sources of the phrases `ps`. -/
def Parser.ofPhrases (ps : List Phrase) : Parser := fun _ source =>
  match ps.find? (·.full == source) with
  | some p => ⟨p.parse, false⟩
  | none => ⟨.undivided source, false⟩

theorem Parser.isFaithful_ofPhrases (ps : List Phrase) : (ofPhrases ps).IsFaithful := by
  intro grammar source
  unfold ofPhrases
  split
  · next p hp =>
    have hfull : p.full = source := by simpa using List.find?_some hp
    rw [← hfull]
    exact p.isParseOf_parse
  · exact Tree.isParseOf_undivided source

/-- Of phrases with different texts `ofPhrases` finds each by its own. -/
theorem Parser.ofPhrases_full {ps : List Phrase} (h : (ps.map Phrase.full).Nodup) {p : Phrase}
    (hp : p ∈ ps) (grammar : Grammar) : (ofPhrases ps grammar p.full).tree = p.parse := by
  have hfind : ps.find? (·.full == p.full) = some p := by
    induction ps with
    | nil => cases hp
    | cons q ps ih =>
      obtain ⟨hq, hrest⟩ := List.nodup_cons.1 h
      rcases List.mem_cons.1 hp with rfl | hp
      · simp
      · -- the first one is passed over, since its text is another one
        have hne : (q.full == p.full) = false := by
          rw [beq_eq_false_iff_ne]
          exact fun heq => hq (heq ▸ List.mem_map_of_mem hp)
        rw [List.find?_cons_of_neg (by simp [hne]), ih hrest hp]
  unfold ofPhrases
  rw [hfind]

end ArrowLint
