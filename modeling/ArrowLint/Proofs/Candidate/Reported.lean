/-
  ArrowLint.Proofs.Candidate.Reported

  Which candidates are reported. `Candidate.IsReportable` gathers the conditions, said of the
  tree: what must not be mentioned below the node, what must not stand above it, how the
  body is built, and where the member stands that the function is the value of.

    * `Candidate.unblocked_iff`: nothing makes it unsafe to write the candidate as an arrow
      function just when it is no generator, scans no node that is bound to the function and
      is in no assignment to a prototype that the options protect;
    * one lemma for each of the four kinds of verdict adds the conditions of its shape, and
      `Node.Makes.verdict_report_iff` puts them together: the verdict is a report just when the
      candidate is reportable;
    * `Rule.judge_report_iff` says the same of what the rule finds.
-/

import ArrowLint.Proofs.Candidate.Body
import ArrowLint.Proofs.Candidate.Messages

namespace ArrowLint

open Node

/-! ## What an arrow function has no counterpart for -/

/-- What is bound to the function around it, so that it would mean something else in an arrow
    function: `this`, `super`, `arguments` and `new.target`. -/
inductive Node.IsBound (n : Node) : Prop
  | this (kind : n.kind.isThis = true)
  | superclass (kind : n.kind = .superKeyword)
  | arguments (kind : n.kind.isIdentifier = true) (text : n.text = .ok "arguments")
  | newTarget {text : String} (kind : n.kind = .metaProperty ∨ n.kind = .memberExpression)
      (text_eq : n.text = .ok text) (spells : Text.squeeze text = "new.target".toList)

/-- Whether `m` is looked through for the function `n`: all that `n` contains, but of a method only
    the four parts that belong to the function. -/
def Node.Scans (n m : Node) : Prop :=
  if n.kind = .methodDefinition then
    ∃ f ∈ [Field.typeParameters, .parameters, .returnType, .body],
      ∃ part, n.field f = some part ∧ part.Contains m
  else n.Contains m

theorem Node.mem_scanned_iff {n m : Node} : m ∈ n.scanned ↔ n.Scans m := by
  unfold scanned Scans
  by_cases hk : n.kind = .methodDefinition
  · rw [if_pos hk, if_pos (beq_iff_eq.2 hk), List.mem_flatMap]
    constructor
    · rintro ⟨part, hp, hm⟩
      obtain ⟨f, hf, hpart⟩ := List.mem_filterMap.1 hp
      exact ⟨f, hf, part, hpart, mem_walk_iff.1 hm⟩
    · rintro ⟨f, hf, part, hpart, hm⟩
      exact ⟨part, List.mem_filterMap.2 ⟨f, hf, hpart⟩, mem_walk_iff.2 hm⟩
  · rw [if_neg hk, if_neg (by simpa using hk)]
    exact mem_walk_iff

theorem Kind.isThis_of_isIdentifier {k : Kind} (h : k.isIdentifier = true) :
    k.isThis = false ∧ k ≠ .superKeyword := by
  unfold isIdentifier at h
  split at h
  case h_5 => cases h
  all_goals exact ⟨rfl, by decide⟩

/-- A node with an `obstacle?` `IsBound`. -/
theorem Node.isBound_of_obstacle? {n : Node} {obstacle : Obstacle}
    (h : n.obstacle? = .ok (some obstacle)) : n.IsBound := by
  unfold obstacle? at h
  split at h
  · next hk => exact .this hk
  · split at h
    · next hk => exact .superclass (beq_iff_eq.1 hk)
    · split at h
      · next hk =>
        obtain ⟨text, ht, h⟩ := map_eq_ok_iff.1 h
        split at h
        · next ha => exact .arguments hk (by rw [ht, beq_iff_eq.1 ha])
        · cases h
      · split at h
        · next hk =>
          obtain ⟨text, ht, h⟩ := map_eq_ok_iff.1 h
          split at h
          · next hs =>
            exact .newTarget (by simpa using hk) ht (by simpa [Text.spellsOut] using hs)
          · cases h
        · cases h

/-- A node that `IsBound` is not passed over: `obstacle?` does not answer `none`. -/
theorem Node.IsBound.obstacle?_ne_none {n : Node} (h : n.IsBound) : n.obstacle? ≠ .ok none := by
  unfold obstacle?
  cases h with
  | this kind =>
    rw [if_pos kind]
    simp
  | superclass kind =>
    rw [kind]
    simp [Kind.isThis]
  | arguments kind text =>
    -- the two questions that are asked first are about other kinds
    obtain ⟨hthis, hsuper⟩ := Kind.isThis_of_isIdentifier kind
    rw [if_neg (by simp [hthis]), if_neg (by simpa using hsuper), if_pos kind, text]
    simp [Except.map]
  | newTarget kind text_eq spells =>
    have hs : Text.spellsOut _ "new.target" = true := beq_iff_eq.2 spells
    rcases kind with kind | kind
    · simp [kind, Kind.isThis, Kind.isIdentifier, text_eq, hs, Except.map]
    · simp [kind, Kind.isThis, Kind.isIdentifier, text_eq, hs, Except.map]

namespace Candidate

variable {c : Candidate} {o : Options}

/-! ## What makes it unsafe to write a candidate as an arrow function -/

/-- Whether `c` can be written as an arrow function without a change of meaning, as far as the
    options `o` ask for that. -/
structure IsUnblocked (c : Candidate) (o : Options) : Prop where
  noGenerator : c.isGenerator = false
  unbound : ∀ m, c.node.Scans m → ¬ m.IsBound
  place : o.disallowPrototype = true ∨ ∀ a ∈ c.node.ancestors, ¬ a.AssignsToPrototype

theorem prototypeGate?_eq_none_iff (hc : c.node.context = .ok c.context) :
    c.prototypeGate? o = none ↔
      (o.disallowPrototype = true ∨ ∀ a ∈ c.node.ancestors, ¬ a.AssignsToPrototype) := by
  have hp : c.context.isPrototype = false ↔ ∀ a ∈ c.node.ancestors, ¬ a.AssignsToPrototype := by
    rw [← Bool.not_eq_true, isPrototype_context_iff hc]
    simp
  rw [← hp]
  unfold prototypeGate?
  cases c.context.isPrototype <;> cases o.disallowPrototype <;> simp

/-- Where `blocking?` answers, it finds nothing just when `c` `IsUnblocked`. -/
theorem unblocked_iff {found : Option Obstacle} (hc : c.node.context = .ok c.context)
    (h : c.blocking? o = .ok found) : found = none ↔ c.IsUnblocked o := by
  have hnone : found = none ↔ c.blocking? o = .ok none := by simp [h]
  rw [hnone, blocking?_eq_none_iff, prototypeGate?_eq_none_iff hc]
  constructor
  · -- every node has been looked at, and what is left is the place of the candidate
    rintro ⟨hsafe, hplace⟩
    refine ⟨hsafe.noGenerator, fun m hm hbound => hbound.obstacle?_ne_none ?_, hplace⟩
    exact findSomeM?_eq_ok_none_iff.1 hsafe.unbound m (mem_scanned_iff.2 hm)
  · intro hu
    refine ⟨⟨hu.noGenerator, ?_⟩, hu.place⟩
    rw [blocking?, if_neg (by simp [hu.noGenerator])] at h
    obtain ⟨mentioned, hm, -⟩ := map_eq_ok_iff.1 h
    cases mentioned with
    | none => exact hm
    | some obstacle =>
      -- the search would have ended at a node that is bound
      obtain ⟨m, hmem, hobs⟩ := exists_of_findSomeM?_eq_ok_some hm
      exact absurd (isBound_of_obstacle? hobs) (hu.unbound m (mem_scanned_iff.1 hmem))

/-! ## What is asked of each shape -/

/-- Whether a function does no more than return, and is not exported by default under a name, if
    `singleReturnOnly` is set. -/
def IsSingleReturn (c : Candidate) (o : Options) : Prop :=
  o.singleReturnOnly = true → c.returnsImmediately = true ∧ c.isNamedDefaultExport = false

/-- Whether the options and the place of `entry` allow an arrow function for its value. What stands
    in an assignment to a prototype does not count as standing in a class, however deep in one it
    is, unless the class holds the member itself. -/
structure IsOpenMember (c : Candidate) (entry : Node) (o : Options) : Prop where
  place : o.classPropertiesAllowed = true ∨
    (entry.isClassMember = false ∧ ((∀ a ∈ c.node.ancestors, a.kind ≠ .classBody) ∨
      ∃ a ∈ c.node.ancestors, a.AssignsToPrototype))
  noConstructor : ¬ (entry.isClassMember = true ∧ c.name = "constructor")
  required : ∀ t ∈ entry.children, t.kind ≠ .questionMark

/-- Whether `c` is one to report under the options `o`, by the tree alone. -/
structure IsReportable (c : Candidate) (o : Options) : Prop extends c.IsUnblocked o where
  arrow : c.node.kind = .arrowFunction →
    (c.bodyShape = .expressionBody ∧ o.returnStyle = .explicit) ∨
      (c.bodyShape = .blockSingleReturn ∧ o.returnStyle = .implicit)
  function : c.node.kind ≠ .arrowFunction → c.IsSingleReturn o
  member : ∀ entry, c.entry = some entry → c.IsOpenMember entry o

theorem unless_eq_report_iff {found : Option Obstacle} {message : Message} :
    (∃ m, Verdict.unless found message = .report m) ↔ found = none := by
  simp [unless_eq_report]

theorem singleReturnGate?_eq_none_iff : c.singleReturnGate? o = none ↔ c.IsSingleReturn o := by
  unfold singleReturnGate? IsSingleReturn
  cases o.singleReturnOnly <;> cases c.returnsImmediately <;> cases c.isNamedDefaultExport <;> simp

theorem functionVerdict_report_iff {v : Verdict} (hc : c.node.context = .ok c.context)
    (h : c.functionVerdict o = .ok v) :
    (∃ m, v = .report m) ↔ c.IsUnblocked o ∧ c.IsSingleReturn o := by
  obtain ⟨found, hf, rfl⟩ := map_eq_ok_iff.1 h
  rw [unless_eq_report_iff, Option.orElse_eq_orElse, Option.orElse_eq_or, Option.or_eq_none_iff,
    unblocked_iff hc hf, singleReturnGate?_eq_none_iff]

/-- What the tree says of an `entry` that `IsOpenMember` is what `IsAdmitted` asks of the
    candidate. -/
theorem isOpenMember_iff {entry : Node} (hc : c.node.context = .ok c.context)
    (he : c.entry = some entry) (hr : c.role = entry.memberRole) :
    c.IsOpenMember entry o ↔ c.IsAdmitted o := by
  have hclass : c.role = .classMethod ↔ entry.isClassMember = true := by
    rw [hr, memberRole_eq_classMethod_iff]
  have hwithin : ¬ c.context = .withinClassBody ↔
      (∀ a ∈ c.node.ancestors, a.kind ≠ .classBody) ∨
        ∃ a ∈ c.node.ancestors, a.AssignsToPrototype := by
    rw [context_eq_withinClassBody_iff hc, Classical.not_and_iff_not_or_not]
    simp
  have hplace : ¬ (c.role = .classMethod ∨ c.context = .withinClassBody) ↔
      entry.isClassMember = false ∧ ((∀ a ∈ c.node.ancestors, a.kind ≠ .classBody) ∨
        ∃ a ∈ c.node.ancestors, a.AssignsToPrototype) := by
    rw [not_or, hclass, hwithin, Bool.not_eq_true]
  have hrequired : c.isOptionalMember = false ↔ ∀ t ∈ entry.children, t.kind ≠ .questionMark := by
    simp [isOptionalMember, he]
  constructor
  · intro h
    exact ⟨h.place.imp_right hplace.2, by rw [hclass]; exact h.noConstructor,
      hrequired.2 h.required⟩
  · intro h
    exact ⟨h.place.imp_right hplace.1, by rw [← hclass]; exact h.noConstructor,
      hrequired.1 h.required⟩

theorem propertyVerdict_report_iff {v : Verdict} {entry : Node}
    (hc : c.node.context = .ok c.context) (he : c.entry = some entry)
    (hr : c.role = entry.memberRole) (h : c.propertyVerdict o = .ok v) :
    (∃ m, v = .report m) ↔
      c.IsOpenMember entry o ∧ c.IsUnblocked o ∧ c.IsSingleReturn o := by
  rw [isOpenMember_iff hc he hr]
  by_cases ha : c.IsAdmitted o
  · rw [propertyVerdict_of_isAdmitted ha] at h
    rw [functionVerdict_report_iff hc h]
    exact ⟨fun hrest => ⟨ha, hrest⟩, fun hall => hall.2⟩
  · obtain ⟨obstacle, hskip⟩ := exists_skip_of_not_isAdmitted ha
    obtain rfl := Except.ok.inj (hskip.symm.trans h)
    exact iff_of_false (by simp) fun hall => ha hall.1

theorem expressionBodyVerdict_report_iff {v : Verdict} (hc : c.node.context = .ok c.context)
    (h : c.expressionBodyVerdict o = .ok v) :
    (∃ m, v = .report m) ↔ o.returnStyle = .explicit ∧ c.IsUnblocked o := by
  unfold expressionBodyVerdict at h
  split at h
  · next hstyle =>
    obtain rfl := Except.ok.inj h
    simpa using fun hs => absurd hs (by simpa using hstyle)
  · next hstyle =>
    obtain ⟨found, hf, rfl⟩ := map_eq_ok_iff.1 h
    have hs : o.returnStyle = .explicit := by simpa using hstyle
    rw [unless_eq_report_iff, unblocked_iff hc hf]
    exact ⟨fun hu => ⟨hs, hu⟩, fun hall => hall.2⟩

theorem singleReturnVerdict_report_iff {v : Verdict} (hc : c.node.context = .ok c.context)
    (h : c.singleReturnVerdict o = .ok v) : (∃ m, v = .report m) ↔
      o.returnStyle = .implicit ∧ c.returnsImmediately = true ∧ c.IsUnblocked o := by
  unfold singleReturnVerdict at h
  split at h
  · next hstyle =>
    obtain rfl := Except.ok.inj h
    simpa using fun hs => absurd hs (by simpa using hstyle)
  · next hstyle =>
    have hs : o.returnStyle = .implicit := by simpa using hstyle
    split at h
    · next hreturn =>
      obtain rfl := Except.ok.inj h
      simpa using fun _ hr => absurd hr (by simpa using hreturn)
    · next hreturn =>
      obtain ⟨found, hf, rfl⟩ := map_eq_ok_iff.1 h
      have hr : c.returnsImmediately = true := by simpa using hreturn
      rw [unless_eq_report_iff, unblocked_iff hc hf]
      exact ⟨fun hu => ⟨hs, hr, hu⟩, fun hall => hall.2.2⟩

/-! ## Reportable candidates -/

theorem isReportable_of_function (hk : c.node.kind ≠ .arrowFunction) (he : c.entry = none) :
    c.IsReportable o ↔ c.IsUnblocked o ∧ c.IsSingleReturn o := by
  refine ⟨fun h => ⟨h.toIsUnblocked, h.function hk⟩, fun ⟨hu, hs⟩ => ?_⟩
  exact ⟨hu, fun ha => absurd ha hk, fun _ => hs, fun entry hentry => by simp [he] at hentry⟩

theorem isReportable_of_member {entry : Node} (hk : c.node.kind ≠ .arrowFunction)
    (he : c.entry = some entry) :
    c.IsReportable o ↔ c.IsOpenMember entry o ∧ c.IsUnblocked o ∧ c.IsSingleReturn o := by
  refine ⟨fun h => ⟨h.member entry he, h.toIsUnblocked, h.function hk⟩, fun ⟨hm, hu, hs⟩ => ?_⟩
  refine ⟨hu, fun ha => absurd ha hk, fun _ => hs, fun entry' hentry => ?_⟩
  obtain rfl := Option.some.inj (he.symm.trans hentry)
  exact hm

theorem isReportable_of_arrow (hk : c.node.kind = .arrowFunction) (he : c.entry = none) :
    c.IsReportable o ↔ c.IsUnblocked o ∧
      ((c.bodyShape = .expressionBody ∧ o.returnStyle = .explicit) ∨
        (c.bodyShape = .blockSingleReturn ∧ o.returnStyle = .implicit)) := by
  refine ⟨fun h => ⟨h.toIsUnblocked, h.arrow hk⟩, fun ⟨hu, ha⟩ => ?_⟩
  exact ⟨hu, fun _ => ha, fun hn => absurd hk hn, fun entry hentry => by simp [he] at hentry⟩

end Candidate

namespace Node

variable {n : Node} {c : Candidate} {o : Options}

theorem Makes.verdict_report_iff {v : Verdict} (h : n.Makes c) (hv : c.verdict o = .ok v) :
    (∃ m, v = .report m) ↔ c.IsReportable o := by
  have hc : c.node.context = .ok c.context := by rw [h.node, h.context]
  have hn : c.node = n := h.node
  unfold Candidate.verdict at hv
  -- the form fixes the shape, and with it the one condition on what may be reported
  cases h.form with
  | defaultExport kind _ _ shape _ _ entry =>
    rw [shape] at hv
    have hk : c.node.kind ≠ .arrowFunction := by
      rw [hn]
      rcases kind with hk | hk <;> simp [hk]
    rw [Candidate.isReportable_of_function hk entry]
    exact Candidate.functionVerdict_report_iff hc hv
  | plain kind _ _ shape _ entry =>
    rw [shape] at hv
    have hk : c.node.kind ≠ .arrowFunction := by
      rw [hn]
      rcases kind with ⟨hk, -⟩ | ⟨hk, -⟩ <;> simp [hk]
    rw [Candidate.isReportable_of_function hk entry]
    exact Candidate.functionVerdict_report_iff hc hv
  | memberValue kind _ _ _ _ shape role _ _ _ entry =>
    rw [shape] at hv
    rw [Candidate.isReportable_of_member (by simp [hn, kind]) entry]
    exact Candidate.propertyVerdict_report_iff hc entry role hv
  | method kind shape role _ _ _ _ entry =>
    rw [shape] at hv
    rw [Candidate.isReportable_of_member (by simp [hn, kind]) entry]
    exact Candidate.propertyVerdict_report_iff hc entry role hv
  | arrowExpression kind body_eq bodyKind shape _ _ entry =>
    rw [shape] at hv
    have hb : c.bodyShape = .expressionBody := by
      rw [h.bodyShape]
      exact (bodyShape_eq_expressionBody_iff body_eq).2 bodyKind
    rw [Candidate.isReportable_of_arrow (by rw [hn, kind]) entry,
      Candidate.expressionBodyVerdict_report_iff hc hv, hb, and_comm]
    simp
  | arrowReturn kind body_eq bodyKind _ shape _ _ entry =>
    rw [shape] at hv
    have hb : c.bodyShape ≠ .expressionBody := by
      rw [h.bodyShape, Ne, bodyShape_eq_expressionBody_iff body_eq]
      simpa using bodyKind
    have hr : c.returnsImmediately = true ↔ c.bodyShape = .blockSingleReturn := by
      simp [Candidate.returnsImmediately, hb]
    rw [Candidate.isReportable_of_arrow (by rw [hn, kind]) entry,
      Candidate.singleReturnVerdict_report_iff hc hv, hr]
    constructor
    · rintro ⟨hstyle, hreturn, hu⟩
      exact ⟨hu, .inr ⟨hreturn, hstyle⟩⟩
    · rintro ⟨hu, ⟨hexpr, -⟩ | ⟨hreturn, hstyle⟩⟩
      · exact absurd hexpr hb
      · exact ⟨hstyle, hreturn, hu⟩

end Node

/-! ## Reports -/

namespace Rule

variable {n : Node} {c : Candidate}

theorem judge_report_iff {rule : Rule} {path : String} {finding : Finding} (h : n.Makes c)
    (hf : rule.judge path c = .ok finding) :
    (∃ v, finding = .violation v) ↔ c.IsReportable rule.options := by
  rcases judge_eq_ok hf with ⟨obstacle, hv, rfl⟩ | ⟨message, d, fix, hv, -, -, rfl⟩
  · rw [← h.verdict_report_iff hv]
    simp
  · rw [← h.verdict_report_iff hv]
    simp

theorem isReportable_of_check {rule : Rule} {path : String} {v : Violation}
    (hc : n.candidate? = .ok (some c)) (hv : rule.check path n = .ok (.violation v)) :
    c.IsReportable rule.options := by
  rw [check_of_candidate? hc] at hv
  exact (judge_report_iff (makes_of_candidate? hc) hv).1 ⟨v, rfl⟩

theorem exists_check_of_isReportable {rule : Rule} (path : String)
    (hc : n.candidate? = .ok (some c)) (hl : n.whole.IsLegible)
    (hr : c.IsReportable rule.options) : ∃ v, rule.check path n = .ok (.violation v) := by
  have hmakes := makes_of_candidate? hc
  obtain ⟨finding, hf⟩ := exists_judge rule path hmakes hl
  obtain ⟨v, rfl⟩ := (judge_report_iff hmakes hf).2 hr
  exact ⟨v, by rw [check_of_candidate? hc, hf]⟩

/-- Where `rule.check` answers for the node of a candidate, it reports a violation just when the
    candidate `IsReportable`, and on a legible tree it always answers. -/
theorem check_reports_iff (rule : Rule) (path : String) (hc : n.candidate? = .ok (some c)) :
    (n.whole.IsLegible →
      ((∃ v, rule.check path n = .ok (.violation v)) ↔ c.IsReportable rule.options)) ∧
    ∀ finding, rule.check path n = .ok finding →
      ((∃ v, finding = .violation v) ↔ c.IsReportable rule.options) := by
  have hmakes := makes_of_candidate? hc
  rw [check_of_candidate? hc]
  refine ⟨fun hl => ?_, fun finding hf => judge_report_iff hmakes hf⟩
  -- in a legible tree there is an answer, and an answer is right
  obtain ⟨finding, hf⟩ := exists_judge rule path hmakes hl
  rw [hf, ← judge_report_iff hmakes hf]
  simp

/-- The rule reports `function f() {}`, and all that is asked of a candidate holds of it. -/
theorem check_reports_emptyFunction :
    ∃ c, Node.emptyFunction.candidate? = .ok (some c) ∧ Node.emptyFunction.whole.IsLegible ∧
      (∃ v, check ⟨{}, .default⟩ "f.ts" Node.emptyFunction = .ok (.violation v)) ∧
      c.IsReportable {} := by
  have hlegible : Node.emptyFunction.whole.IsLegible :=
    Tree.isParseOf_emptyFunctionProgram.isLegible
  have hreport : ∃ v, check ⟨{}, .default⟩ "f.ts" Node.emptyFunction = .ok (.violation v) :=
    ⟨_, rfl⟩
  refine ⟨_, rfl, hlegible, hreport, ?_⟩
  exact ((check_reports_iff ⟨{}, .default⟩ "f.ts" rfl).1 hlegible).1 hreport

end Rule

end ArrowLint
