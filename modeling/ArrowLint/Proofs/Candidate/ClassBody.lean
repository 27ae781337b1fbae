/-
  ArrowLint.Proofs.Candidate.ClassBody

  Members in class bodies. An option keeps the members of classes from being reported. It holds
  for all that a class body has directly below it, but further down only where nothing is assigned
  to a prototype: the assignment counts for more than the class, whichever of the two is the outer
  one, and then it is the option for prototypes that decides (`Rule.check_member_in_class`). So a
  member of an object that a method assigns to a prototype can be reported.
-/

import ArrowLint.Proofs.Candidate.Reported

namespace ArrowLint

open Node

/-- The options `o` with `classPropertiesAllowed` set. -/
def Options.allowingClassMembers (o : Options) : Options :=
  { o with classPropertiesAllowed := true }

/-- Whether a candidate has a class body among the ancestors of its node. -/
def Candidate.IsInClass (c : Candidate) : Prop :=
  ∃ a ∈ c.node.ancestors, a.kind = .classBody

/-- Whether a candidate is in an assignment to a prototype, under options with `disallowPrototype`,
    and its `entry` is no member of a class. -/
structure Candidate.IsOpenByPrototype (c : Candidate) (o : Options) : Prop where
  asked : o.disallowPrototype = true
  assigned : ∃ a ∈ c.node.ancestors, a.AssignsToPrototype
  noClassMember : ∀ entry, c.entry = some entry → entry.isClassMember = false

/-- A candidate of the shape `propertyValue` has an `entry`. -/
theorem Node.Makes.exists_entry {n : Node} {c : Candidate} (h : n.Makes c)
    (hs : c.shape = .propertyValue) : ∃ entry, c.entry = some entry := by
  cases h.form with
  | memberValue _ _ _ _ _ _ _ _ _ _ entry => exact ⟨_, entry⟩
  | method _ _ _ _ _ _ _ entry => exact ⟨_, entry⟩
  | defaultExport _ _ _ shape => rw [hs] at shape; cases shape
  | plain _ _ _ shape => rw [hs] at shape; cases shape
  | arrowExpression _ _ _ shape => rw [hs] at shape; cases shape
  | arrowReturn _ _ _ _ shape => rw [hs] at shape; cases shape

namespace Candidate

variable {c : Candidate} {o : Options}

/-- A member below a class body that is reportable without `classPropertiesAllowed`
    `IsOpenByPrototype`. -/
theorem IsReportable.isOpenByPrototype (h : c.IsReportable o) (hs : ∃ entry, c.entry = some entry)
    (hoff : o.classPropertiesAllowed = false) (hclass : c.IsInClass) : c.IsOpenByPrototype o := by
  have hopen : ∀ entry, c.entry = some entry → entry.isClassMember = false ∧
      ∃ a ∈ c.node.ancestors, a.AssignsToPrototype := by
    intro entry he
    rcases (h.member entry he).place with hon | ⟨hmember, hnone | hassigned⟩
    · rw [hoff] at hon
      cases hon
    · obtain ⟨a, ha, hk⟩ := hclass
      exact absurd hk (hnone a ha)
    · exact ⟨hmember, hassigned⟩
  obtain ⟨entry, he⟩ := hs
  obtain ⟨a, ha, hassigns⟩ := (hopen entry he).2
  refine ⟨?_, ⟨a, ha, hassigns⟩, fun entry he => (hopen entry he).1⟩
  -- the other gate lets what is assigned to a prototype pass only if it is asked for
  rcases h.place with hasked | hnone
  · exact hasked
  · exact absurd hassigns (hnone a ha)

/-- For a candidate that `IsOpenByPrototype` the option `classPropertiesAllowed` changes nothing. -/
theorem IsOpenByPrototype.isReportable_iff (h : c.IsOpenByPrototype o) :
    c.IsReportable o ↔ c.IsReportable o.allowingClassMembers := by
  refine ⟨fun hr => ?_, fun hr => ?_⟩
  · exact {
      toIsUnblocked := ⟨hr.noGenerator, hr.unbound, hr.toIsUnblocked.place⟩
      arrow := hr.arrow
      function := hr.function
      member := fun entry he =>
        ⟨.inl rfl, (hr.member entry he).noConstructor, (hr.member entry he).required⟩ }
  · exact {
      toIsUnblocked := ⟨hr.noGenerator, hr.unbound, hr.toIsUnblocked.place⟩
      arrow := hr.arrow
      function := hr.function
      member := fun entry he =>
        ⟨.inr ⟨h.noClassMember entry he, .inr h.assigned⟩, (hr.member entry he).noConstructor,
          (hr.member entry he).required⟩ }

end Candidate

namespace Rule

variable {n : Node} {c : Candidate}

/-- Without `classPropertiesAllowed`, a member somewhere below a class body is reported only if it
    `IsOpenByPrototype`: it is in an assignment to a prototype, not directly in a class body, and
    `disallowPrototype` is set. There it is reported just as under `allowingClassMembers`. -/
theorem check_member_in_class (rule : Rule) (path : String) (hc : n.candidate? = .ok (some c))
    (hs : c.shape = .propertyValue) (hoff : rule.options.classPropertiesAllowed = false) :
    ((∃ v, rule.check path n = .ok (.violation v)) →
      (∃ a ∈ n.ancestors, a.kind = .classBody) → c.IsOpenByPrototype rule.options) ∧
    (n.whole.IsLegible → c.IsOpenByPrototype rule.options →
      ((∃ v, rule.check path n = .ok (.violation v)) ↔
        ∃ v, check { rule with options := rule.options.allowingClassMembers } path n
          = .ok (.violation v))) := by
  refine ⟨fun ⟨v, hv⟩ hclass => ?_, fun hl hopen => ⟨fun ⟨v, hv⟩ => ?_, fun ⟨v, hv⟩ => ?_⟩⟩
  · have hmakes := makes_of_candidate? hc
    rw [← hmakes.node] at hclass
    exact (isReportable_of_check hc hv).isOpenByPrototype (hmakes.exists_entry hs) hoff hclass
  · have hreportable := hopen.isReportable_iff.1 (isReportable_of_check hc hv)
    exact exists_check_of_isReportable path hc hl hreportable
  · have hreportable := hopen.isReportable_iff.2 (isReportable_of_check hc hv)
    exact exists_check_of_isReportable path hc hl hreportable

end Rule

/-! ## A prototype inside of a class -/

/-- The member `z` in `class A { m(){ X.prototype.y = { z(){ return 1 } } } }`. -/
def Tree.memberOfPrototype : Tree :=
  .node (.ofText .methodDefinition true 33 "z()\x7b return 1 \x7d" []) [
    .node (.ofText .propertyIdentifier true 33 "z" [.name]) [],
    .node (.ofText (.other "formal_parameters") true 34 "()" [.parameters]) [
      .node (.ofText (.other "(") false 34 "(" []) [],
      .node (.ofText (.other ")") false 35 ")" []) []],
    .node (.ofText .statementBlock true 36 "\x7b return 1 \x7d" [.body]) [
      .node (.ofText (.other "\x7b") false 36 "\x7b" []) [],
      .node (.ofText .returnStatement true 38 "return 1" []) [
        .node (.ofText (.other "return") false 38 "return" []) [],
        .node (.ofText (.other "number") true 45 "1" []) []],
      .node (.ofText (.other "\x7d") false 47 "\x7d" []) []]]

/-- The method `z` of `memberOfPrototype` in its place in the class. -/
def Node.memberOfPrototype : Node :=
  ⟨.memberOfPrototype, [
    { label := .ofText .object true 31 "\x7b z()\x7b return 1 \x7d \x7d" []
      before := [
        .node (.ofText (.other "\x7b") false 31 "\x7b" []) []]
      after := [
        .node (.ofText (.other "\x7d") false 49 "\x7d" []) []] },
    { label := .ofText .assignmentExpression true 15
        "X.prototype.y = \x7b z()\x7b return 1 \x7d \x7d" []
      before := [
        .node (.ofText (.other "=") false 29 "=" []) [],
        .node (.ofText .memberExpression true 15 "X.prototype.y" [.left]) [
          .node (.ofText .memberExpression true 15 "X.prototype" [.object]) [
            .node (.ofText .identifier true 15 "X" [.object]) [],
            .node (.ofText (.other ".") false 16 "." []) [],
            .node (.ofText .propertyIdentifier true 17 "prototype" [.property]) []],
          .node (.ofText (.other ".") false 26 "." []) [],
          .node (.ofText .propertyIdentifier true 27 "y" [.property]) []]]
      after := [] },
    { label := .ofText (.other "expression_statement") true 15
        "X.prototype.y = \x7b z()\x7b return 1 \x7d \x7d" []
      before := []
      after := [] },
    { label := .ofText .statementBlock true 13
        "\x7b X.prototype.y = \x7b z()\x7b return 1 \x7d \x7d \x7d" [.body]
      before := [
        .node (.ofText (.other "\x7b") false 13 "\x7b" []) []]
      after := [
        .node (.ofText (.other "\x7d") false 51 "\x7d" []) []] },
    { label := .ofText .methodDefinition true 10
        "m()\x7b X.prototype.y = \x7b z()\x7b return 1 \x7d \x7d \x7d" []
      before := [
        .node (.ofText (.other "formal_parameters") true 11 "()" [.parameters]) [
          .node (.ofText (.other "(") false 11 "(" []) [],
          .node (.ofText (.other ")") false 12 ")" []) []],
        .node (.ofText .propertyIdentifier true 10 "m" [.name]) []]
      after := [] },
    { label := .ofText .classBody true 8
        "\x7b m()\x7b X.prototype.y = \x7b z()\x7b return 1 \x7d \x7d \x7d \x7d" [.body]
      before := [
        .node (.ofText (.other "\x7b") false 8 "\x7b" []) []]
      after := [
        .node (.ofText (.other "\x7d") false 53 "\x7d" []) []] },
    { label := .ofText (.other "class_declaration") true 0
        "class A \x7b m()\x7b X.prototype.y = \x7b z()\x7b return 1 \x7d \x7d \x7d \x7d" []
      before := [
        .node (.ofText (.other "type_identifier") true 6 "A" [.name]) [],
        .node (.ofText (.other "class") false 0 "class" []) []]
      after := [] },
    { label := .ofText (.other "program") true 0
        "class A \x7b m()\x7b X.prototype.y = \x7b z()\x7b return 1 \x7d \x7d \x7d \x7d" []
      before := []
      after := [] }]⟩

namespace Rule

/-- The rule with `disallowPrototype` reports `memberOfPrototype`, though there is a class body
    above it. -/
theorem check_memberOfPrototype :
    Node.memberOfPrototype.whole.IsParseOf
      "class A \x7b m()\x7b X.prototype.y = \x7b z()\x7b return 1 \x7d \x7d \x7d \x7d" ∧
    ∃ c v, Node.memberOfPrototype.candidate? = .ok (some c) ∧ c.shape = .propertyValue ∧
      check ⟨{ disallowPrototype := true }, .default⟩ "a.ts" Node.memberOfPrototype
        = .ok (.violation v) ∧
      (∃ a ∈ Node.memberOfPrototype.ancestors, a.kind = .classBody) ∧
      c.IsOpenByPrototype { disallowPrototype := true } := by
  have hclass : ∃ a ∈ Node.memberOfPrototype.ancestors, a.kind = .classBody := by decide
  refine ⟨by decide, _, _, rfl, rfl, rfl, hclass, ?_⟩
  exact (check_member_in_class ⟨{ disallowPrototype := true }, .default⟩ "a.ts" rfl rfl rfl).1
    ⟨_, rfl⟩ hclass

/-- A class body above a member does not keep it from being reported, even without
    `classPropertiesAllowed`. -/
theorem member_in_class_reported :
    ¬ ∀ (rule : Rule) (path : String) (n : Node) (c : Candidate) (v : Violation),
      n.candidate? = .ok (some c) → c.shape = .propertyValue →
      rule.options.classPropertiesAllowed = false → rule.check path n = .ok (.violation v) →
      ∀ a ∈ n.ancestors, a.kind ≠ .classBody := by
  intro h
  have hnone := h ⟨{ disallowPrototype := true }, .default⟩ "a.ts" Node.memberOfPrototype _ _
    rfl rfl rfl rfl
  exact absurd hnone (by decide)

end Rule

end ArrowLint
