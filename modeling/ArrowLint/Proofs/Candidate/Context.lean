/-
  ArrowLint.Proofs.Candidate.Context

  Which of the nodes above decides where a function stands. The way up is walked once: it ends at
  the first assignment to a prototype or to a member of one, and remembers on the way whether it
  has passed a class body. `Node.StandsIn` says the same without a walk: of all such assignments
  above a node the one that lies in every other counts, whatever else lies between or above, and a
  class body counts only where there is none. In every tree the context that is found is the one in
  which the node stands, and a node stands in one context only (`Node.context_by_nearest`).
-/

import ArrowLint.Proofs.Candidate.Place
import ArrowLint.Proofs.Syntax.Nesting
import ArrowLint.Proofs.Syntax.Phrase

namespace ArrowLint

namespace Node

variable {n : Node} {context : Context}

/-- The contexts in which a node stands, by what contains it. -/
inductive StandsIn (n : Node) : Context → Prop
  /-- Every other assignment to a prototype above `n` contains `a`. -/
  | assigned {a : Node} {context : Context} (below : n.IsBelow a) (assigns : a.AssignsAs context)
      (nearest : ∀ b, n.IsBelow b → b.AssignsToPrototype → b.Contains a) : n.StandsIn context
  | inClass {a : Node} (unassigned : ∀ b, n.IsBelow b → ¬ b.AssignsToPrototype)
      (below : n.IsBelow a) (kind : a.kind = .classBody) : n.StandsIn .withinClassBody
  | free (unassigned : ∀ b, n.IsBelow b → ¬ b.AssignsToPrototype)
      (outside : ∀ b, n.IsBelow b → b.kind ≠ .classBody) : n.StandsIn .none

/-- If `a` is the nearest assignment to a prototype above `n`, then `n` stands in no other context
    than that of `a`. -/
theorem StandsIn.assignsAs {a : Node} (h : n.StandsIn context) (below : n.IsBelow a)
    (assigns : a.AssignsToPrototype)
    (nearest : ∀ b, n.IsBelow b → b.AssignsToPrototype → b.Contains a) : a.AssignsAs context := by
  cases h with
  | @assigned a' _ below' assigns' nearest' =>
    -- each of the two has the other in it
    have haa := nearest a' below' assigns'.assignsToPrototype
    obtain rfl := haa.antisymm (nearest' a below assigns)
    exact assigns'
  | inClass unassigned => exact absurd assigns (unassigned a below)
  | free unassigned => exact absurd assigns (unassigned a below)

theorem StandsIn.unique {other : Context} (h : n.StandsIn context) (h' : n.StandsIn other) :
    other = context := by
  cases h with
  | assigned below assigns nearest =>
    exact assigns.unique (h'.assignsAs below assigns.assignsToPrototype nearest)
  | inClass unassigned below kind =>
    cases h' with
    | assigned below' assigns' =>
      exact absurd assigns'.assignsToPrototype (unassigned _ below')
    | inClass => rfl
    | free _ outside => exact absurd kind (outside _ below)
  | free unassigned outside =>
    cases h' with
    | assigned below' assigns' =>
      exact absurd assigns'.assignsToPrototype (unassigned _ below')
    | inClass _ below kind => exact absurd kind (outside _ below)
    | free => rfl

/-- An assignment among the ancestors with none `nearer` lies in all others that stand above `n`. -/
theorem nearest_of_append {a : Node} {nearer farther : List Node}
    (h : n.ancestors = nearer ++ a :: farther) (hnearer : ∀ b ∈ nearer, ¬ b.AssignsToPrototype) :
    ∀ b, n.IsBelow b → b.AssignsToPrototype → b.Contains a := by
  intro b hb hassigns
  have hmem := mem_ancestors_iff.2 hb
  rw [h, List.mem_append, List.mem_cons] at hmem
  rcases hmem with hmem | rfl | hmem
  · exact absurd hassigns (hnearer b hmem)
  · exact .self b
  · -- what comes further up stands above this one, too
    rw [← ancestors_of_append h] at hmem
    exact (mem_ancestors_iff.1 hmem).1

/-- The `context` found for a node is one in which it `StandsIn`. -/
theorem standsIn_of_context (h : n.context = .ok context) : n.StandsIn context := by
  rcases contextOf_eq_ok_nearest h with
    ⟨nearer, a, farther, hsplit, hassigns, hnearer⟩ | ⟨hnone, hc⟩
  · have hbelow : n.IsBelow a := mem_ancestors_iff.1 (by rw [hsplit]; simp)
    exact .assigned hbelow hassigns (nearest_of_append hsplit hnearer)
  · have unassigned : ∀ b, n.IsBelow b → ¬ b.AssignsToPrototype :=
      fun b hb => hnone b (mem_ancestors_iff.2 hb)
    split at hc
    · next hclass =>
      obtain ⟨a, ha, hk⟩ := List.any_eq_true.1 hclass
      exact hc ▸ .inClass unassigned (mem_ancestors_iff.1 ha) (beq_iff_eq.1 hk)
    · next hclass =>
      refine hc ▸ .free unassigned fun b hb hk => hclass ?_
      exact List.any_eq_true.2 ⟨b, mem_ancestors_iff.2 hb, beq_iff_eq.2 hk⟩

/-- In whatever tree a `context` is found for `n`, the node `StandsIn` this one and in no other. In
    a legible tree one is found for every node. -/
theorem context_by_nearest (n : Node) :
    (∀ context, n.context = .ok context → ∀ other, n.StandsIn other ↔ other = context) ∧
    (n.whole.IsLegible → ∃ context, n.context = .ok context) := by
  refine ⟨fun context h other => ⟨fun hother => ?_, ?_⟩, exists_context⟩
  · exact (standsIn_of_context h).unique hother
  · rintro rfl
    exact standsIn_of_context h

end Node

/-! ## A function between assignments -/

namespace Phrase

/-- The member expression `name.prototype`. -/
def prototypeOf (name : String) (seat : Seat) : Phrase :=
  .node seat .memberExpression true [
    .node ⟨"", [.object]⟩ .identifier true [] name,
    token "" ".",
    .node ⟨"", [.property]⟩ .propertyIdentifier true [] "prototype"] ""

/-- The class in `class{f=b=function(){}}`. -/
def classOfFunction : Phrase :=
  .node {} (.other "class") true [
    token "" "class",
    .node ⟨"", [.body]⟩ .classBody true [
      token "" "\x7b",
      .node {} .publicFieldDefinition true [
        .node ⟨"", [.name]⟩ .propertyIdentifier true [] "f",
        token "" "=",
        .node ⟨"", [.value]⟩ .assignmentExpression true [
          .node ⟨"", [.left]⟩ .identifier true [] "b",
          token "" "=",
          .node {} .functionExpression true [
            token "" "function",
            .node ⟨"", [.parameters]⟩ (.other "formal_parameters") true [
              token "" "(", token "" ")"] "",
            .node ⟨"", [.body]⟩ .statementBlock true [
              token "" "\x7b", token "" "\x7d"] ""] ""] ""] "",
      token "" "\x7d"] ""] ""

/-- The program `A.prototype=B.prototype.m=class{f=b=function(){}}`. -/
def nestedAssignments : Phrase :=
  .node {} (.other "program") true [
    .node {} (.other "expression_statement") true [
      .node {} .assignmentExpression true [
        prototypeOf "A" ⟨"", [.left]⟩,
        token "" "=",
        .node {} .assignmentExpression true [
          .node ⟨"", [.left]⟩ .memberExpression true [
            prototypeOf "B" ⟨"", [.object]⟩,
            token "" ".",
            .node ⟨"", [.property]⟩ .propertyIdentifier true [] "m"] "",
          token "" "=",
          classOfFunction] ""] ""] ""] ""

end Phrase

namespace Node

/-- Of the three assignments around the function and the class body between them, the one to a
    member of a prototype decides: the context is `prototypeMutationTarget`. -/
theorem context_by_nearest_nestedAssignments :
    ∃ n ∈ (root Phrase.nestedAssignments.parse).walk, n.kind = .functionExpression ∧
      n.whole.IsLegible ∧ (∃ a ∈ n.ancestors, a.kind = .classBody) ∧
      n.context = .ok .prototypeMutationTarget ∧
      ∀ other, n.StandsIn other ↔ other = .prototypeMutationTarget := by
  have hfind : ∃ n, (root Phrase.nestedAssignments.parse).walk.find?
      (·.kind == .functionExpression) = some n ∧ n.kind = .functionExpression ∧
      (∃ a ∈ n.ancestors, a.kind = .classBody) ∧
      ∀ context, n.context = .ok context → context = .prototypeMutationTarget :=
    ⟨_, rfl, rfl, by decide, fun _ h => (Except.ok.inj h).symm⟩
  obtain ⟨n, hn, hk, hclass, hcontext⟩ := hfind
  have hmem := List.mem_of_find?_eq_some hn
  have hlegible : n.whole.IsLegible := by
    rw [whole_of_mem_walk hmem]
    exact Phrase.nestedAssignments.isParseOf_parse.isLegible
  obtain ⟨hstands, hfound⟩ := context_by_nearest n
  obtain ⟨context, h⟩ := hfound hlegible
  obtain rfl := hcontext context h
  exact ⟨n, hmem, hk, hlegible, hclass, h, hstands _ h⟩

end Node

end ArrowLint
