/-
  ArrowLint.Proofs.Lint.Widening

  Options that ask for more. Three of the four options widen what is reported when they are
  switched one way: functions in assignments to prototypes and the members of classes are asked
  for, too, or functions that do more than return (`Options.Widens`). Whatever was reported before
  is reported then, in the same order and with the same fix, and unless the last of the three has
  been switched with the same message as well (`Linter.reports_widen`).

  The message for a function that is no arrow function can be told from the options alone
  (`Candidate.Asks.message_eq`).
-/

import ArrowLint.Proofs.Candidate.ClassBody
import ArrowLint.Proofs.Candidate.Messages
import ArrowLint.Proofs.Lint.Reports

namespace ArrowLint

open Node

/-- Whether `o'` asks for all that `o` asks for, in the same style. -/
structure Options.Widens (o o' : Options) : Prop where
  returnStyle : o'.returnStyle = o.returnStyle
  prototypes : o.disallowPrototype = true → o'.disallowPrototype = true
  classMembers : o.classPropertiesAllowed = true → o'.classPropertiesAllowed = true
  bodies : o'.singleReturnOnly = true → o.singleReturnOnly = true

namespace Options

variable (o : Options)

theorem widens_disallowPrototype : o.Widens { o with disallowPrototype := true } :=
  ⟨rfl, fun _ => rfl, id, id⟩

theorem widens_classPropertiesAllowed : o.Widens { o with classPropertiesAllowed := true } :=
  ⟨rfl, id, fun _ => rfl, id⟩

theorem widens_singleReturnOnly : o.Widens { o with singleReturnOnly := false } :=
  ⟨rfl, id, id, nofun⟩

end Options

namespace Candidate

variable {c : Candidate} {o o' : Options} {m : Message}

/-! ## What stands against a candidate under wider options -/

theorem prototypeGate?_of_widens (h : o.Widens o') (hc : c.prototypeGate? o = none) :
    c.prototypeGate? o' = none := by
  unfold prototypeGate? at *
  cases hp : o.disallowPrototype with
  | true => simp [h.prototypes hp]
  | false =>
    cases hx : c.context.isPrototype with
    | true => simp [hp, hx] at hc
    | false => simp

theorem singleReturnGate?_of_widens (h : o.Widens o') (hc : c.singleReturnGate? o = none) :
    c.singleReturnGate? o' = none := by
  unfold singleReturnGate? at *
  cases hs : o'.singleReturnOnly with
  | true => simpa [h.bodies hs] using hc
  | false => simp

theorem IsConvertible.widen (hc : c.IsConvertible o) (h : o.Widens o') : c.IsConvertible o' :=
  ⟨hc.safe, prototypeGate?_of_widens h hc.place, singleReturnGate?_of_widens h hc.body⟩

theorem IsAdmitted.widen (hc : c.IsAdmitted o) (h : o.Widens o') : c.IsAdmitted o' :=
  ⟨hc.place.imp_left h.classMembers, hc.noConstructor, hc.required⟩

/-- A candidate that `Asks` under `o` asks under wider options, with the same message unless they
    differ in `singleReturnOnly`. -/
theorem Asks.widen (hm : c.Asks o m) (h : o.Widens o') :
    ∃ m', c.Asks o' m' ∧ (o'.singleReturnOnly = o.singleReturnOnly → m' = m) := by
  have harrow : o'.singleReturnOnly = o.singleReturnOnly → c.arrowMessage o' = c.arrowMessage o :=
    fun hs => by rw [arrowMessage, arrowMessage, hs]
  cases hm with
  | function shape convertible => exact ⟨_, .function shape (convertible.widen h), harrow⟩
  | member shape admitted convertible =>
    exact ⟨_, .member shape (admitted.widen h) (convertible.widen h), harrow⟩
  | expressionBody shape style safe place =>
    have hplace := prototypeGate?_of_widens h place
    exact ⟨_, .expressionBody shape (by rw [h.returnStyle, style]) safe hplace, fun _ => rfl⟩
  | singleReturn shape style returns safe place =>
    have hplace := prototypeGate?_of_widens h place
    exact ⟨_, .singleReturn shape (by rw [h.returnStyle, style]) returns safe hplace, fun _ => rfl⟩

/-! ## Messages for functions -/

/-- A function that passes `singleReturnGate?` has the message of the option alone. -/
theorem arrowMessage_of_singleReturnGate? (h : c.singleReturnGate? o = none) :
    c.arrowMessage o =
      if o.singleReturnOnly then .useArrowWhenSingleReturn else .useArrowWhenFunction := by
  unfold singleReturnGate? at h
  unfold arrowMessage
  cases hs : o.singleReturnOnly with
  | false => simp
  | true =>
    cases hr : c.returnsImmediately with
    | true => simp
    | false => simp [hs, hr] at h

/-- The message for a function that is no arrow function depends on `singleReturnOnly` only. -/
theorem Asks.message_eq (hm : c.Asks o m) (hs : c.shape ≠ .arrowExpressionBody)
    (hs' : c.shape ≠ .arrowSingleReturn) :
    m = if o.singleReturnOnly then .useArrowWhenSingleReturn else .useArrowWhenFunction := by
  cases hm with
  | function _ convertible => exact arrowMessage_of_singleReturnGate? convertible.body
  | member _ _ convertible => exact arrowMessage_of_singleReturnGate? convertible.body
  | expressionBody shape => exact absurd shape hs
  | singleReturn shape => exact absurd shape hs'

end Candidate

namespace Rule

variable {rule : Rule} {path : String} {n : Node} {v : Violation} {o o' : Options}

/-- What is reported of a node is reported under wider options, with the same fix, and if
    `singleReturnOnly` is the same with the same message. -/
theorem exists_report?_of_widens (h : o.Widens o')
    (hv : (rule.withOptions o).report? path n = some v) :
    ∃ w, (rule.withOptions o').report? path n = some w ∧ w.fix = v.fix ∧
      (o'.singleReturnOnly = o.singleReturnOnly → w = v) := by
  obtain ⟨c, hc, hjudge⟩ := exists_judge_of_check (report?_eq_some_iff.1 hv)
  obtain ⟨m, d, fix, hasks, hd, hfix, rfl⟩ := judge_eq_violation_iff.1 hjudge
  obtain ⟨m', hasks', hm⟩ := hasks.widen h
  -- the fix depends on the style, and that is the same
  have hfix' : c.fix d o'.returnStyle = .ok fix := by
    rw [h.returnStyle]
    exact hfix
  refine ⟨violationOf (rule.withOptions o') path c m' fix, ?_, rfl, fun hs => ?_⟩
  · rw [report?_eq_some_iff, check_of_candidate? hc, judge_eq_violation_iff]
    exact ⟨m', d, fix, hasks', hd, hfix', rfl⟩
  · rw [hm hs]
    rfl

theorem code_of_report? (hk : n.kind ≠ .arrowFunction) (hv : rule.report? path n = some v) :
    v.code = (if rule.options.singleReturnOnly then Message.useArrowWhenSingleReturn
      else .useArrowWhenFunction).id := by
  obtain ⟨c, hc, hjudge⟩ := exists_judge_of_check (report?_eq_some_iff.1 hv)
  obtain ⟨m, d, fix, hasks, -, -, rfl⟩ := judge_eq_violation_iff.1 hjudge
  obtain ⟨hs, hs'⟩ := (makes_of_candidate? hc).shape_of_ne_arrowFunction hk
  rw [violationOf, hasks.message_eq hs hs']

end Rule

/-- If `g` gives whatever `f` gives, with the same `view` of it, the views of what `f` collects from
    a list are among those of `g`. -/
theorem sublist_map_filterMap {α β γ : Type} {f g : α → Option β} {view : β → γ} {xs : List α}
    (h : ∀ x b, f x = some b → ∃ b', g x = some b' ∧ view b' = view b) :
    ((xs.filterMap f).map view).Sublist ((xs.filterMap g).map view) := by
  induction xs with
  | nil => exact .slnil
  | cons x xs ih =>
    rw [List.filterMap_cons, List.filterMap_cons]
    cases hf : f x with
    | none =>
      cases g x with
      | none => exact ih
      | some b' => exact ih.cons _
    | some b =>
      obtain ⟨b', hg, hview⟩ := h x b hf
      rw [hg, List.map_cons, List.map_cons, hview]
      exact ih.cons_cons _

namespace Linter

/-- The nodes and fixes that are reported on a source are among those reported under options that
    are wider, in the same order. So are the whole violations, unless `singleReturnOnly` differs.
    The message for what is no arrow function yet depends on that one option only. -/
theorem reports_widen (linter : Linter) (source path : String) {o o' : Options}
    (h : o.Widens o') :
    (∀ report, (linter.withOptions o).lint source path = .ok report →
      report.result.violations = ((linter.withOptions o).reports source path).map (·.2)) ∧
    (((linter.withOptions o).reports source path).map fun p => (p.1, p.2.fix)).Sublist
      (((linter.withOptions o').reports source path).map fun p => (p.1, p.2.fix)) ∧
    (o'.singleReturnOnly = o.singleReturnOnly →
      ((linter.withOptions o).reports source path).Sublist
        ((linter.withOptions o').reports source path)) ∧
    ∀ n v, (n, v) ∈ (linter.withOptions o).reports source path → n.kind ≠ .arrowFunction →
      v.code = (if o.singleReturnOnly then Message.useArrowWhenSingleReturn
        else .useArrowWhenFunction).id := by
  have hpoint : ∀ (n : Node) (p : Node × Violation),
      (((linter.withOptions o).rule.report? path n).map (n, ·)) = some p →
      ∃ q, (((linter.withOptions o').rule.report? path n).map (n, ·)) = some q ∧
        (q.1, q.2.fix) = (p.1, p.2.fix) ∧
        (o'.singleReturnOnly = o.singleReturnOnly → q = p) := by
    intro n p hp
    obtain ⟨v, hv, rfl⟩ := Option.map_eq_some_iff.1 hp
    obtain ⟨w, hw, hfix, hsame⟩ := Rule.exists_report?_of_widens h hv
    refine ⟨(n, w), Option.map_eq_some_iff.2 ⟨w, hw, rfl⟩, by rw [hfix], fun hs => ?_⟩
    rw [hsame hs]
  refine ⟨fun report hreport => violations_eq_map_reports hreport, ?_, fun hs => ?_, ?_⟩
  · refine sublist_map_filterMap fun n p hp => ?_
    obtain ⟨q, hq, hview, -⟩ := hpoint n p hp
    exact ⟨q, hq, hview⟩
  · rw [← List.map_id ((linter.withOptions o).reports source path),
      ← List.map_id ((linter.withOptions o').reports source path)]
    refine sublist_map_filterMap fun n p hp => ?_
    obtain ⟨q, hq, -, hsame⟩ := hpoint n p hp
    exact ⟨q, hq, hsame hs⟩
  · intro n v hv hk
    obtain ⟨-, hcheck⟩ := mem_reports_iff.1 hv
    exact Rule.code_of_report? hk (Rule.report?_eq_some_iff.2 hcheck)

/-! ## A prototype in a class -/

/-- A class in which a method assigns to a prototype, as a source. -/
def prototypeInClass : String :=
  "class A \x7b m()\x7b X.prototype.y = \x7b z()\x7b return 1 \x7d \x7d \x7d \x7d"

/-- A linter with a parser that gives the tree of `prototypeInClass`. -/
def memberOfPrototype : Linter :=
  ⟨⟨{}, .default⟩, fun _ _ => ⟨Node.memberOfPrototype.whole, false⟩⟩

/-- The method of the class is reported with and without `disallowPrototype`, and what is assigned
    to the prototype in it only with that option. -/
theorem reports_widen_memberOfPrototype :
    Options.Widens { classPropertiesAllowed := true }
      { classPropertiesAllowed := true, disallowPrototype := true } ∧
    ((memberOfPrototype.withOptions { classPropertiesAllowed := true }).reports
      prototypeInClass "a.ts").map (·.2.fix.span) = [⟨10, 52⟩] ∧
    ((memberOfPrototype.withOptions
      { classPropertiesAllowed := true, disallowPrototype := true }).reports
      prototypeInClass "a.ts").map (·.2.fix.span) = [⟨10, 52⟩, ⟨33, 48⟩] ∧
    ((memberOfPrototype.withOptions { classPropertiesAllowed := true }).reports
      prototypeInClass "a.ts").Sublist
      ((memberOfPrototype.withOptions
        { classPropertiesAllowed := true, disallowPrototype := true }).reports
        prototypeInClass "a.ts") := by
  have hw := Options.widens_disallowPrototype { classPropertiesAllowed := true }
  obtain ⟨-, -, hsame, -⟩ := reports_widen memberOfPrototype prototypeInClass "a.ts" hw
  exact ⟨hw, rfl, rfl, hsame rfl⟩

end Linter

end ArrowLint
