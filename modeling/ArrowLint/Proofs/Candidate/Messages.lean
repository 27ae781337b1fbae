/-
  ArrowLint.Proofs.Candidate.Messages

  With which message a candidate is reported. `Candidate.Asks c o m` says that nothing stands
  against reporting the candidate `c` with the message `m` under the options `o`, with one rule
  for functions, one for members and two for arrow functions.

    * `Candidate.verdict_eq_report_iff`: these rules are what the verdict goes by;
    * `Rule.judge_eq_violation_iff`: what is reported is the message, and the fix that the
      descriptor gives in the wanted style. No other option has a part in the fix.
-/

import ArrowLint.Proofs.Candidate.Finding

namespace ArrowLint

open Node

variable {c : Candidate} {o : Options} {m : Message}

namespace Candidate

/-- Whether nothing in a candidate itself, whatever the options, is an `Obstacle`. -/
structure IsSafe (c : Candidate) : Prop where
  noGenerator : c.isGenerator = false
  unbound : c.node.scanned.findSomeM? Node.obstacle? = .ok none

/-- Whether the options let a member of an object or a class become an arrow function (the gates of
    `propertyVerdict`). -/
structure IsAdmitted (c : Candidate) (o : Options) : Prop where
  place : o.classPropertiesAllowed = true ∨ ¬ (c.role = .classMethod ∨ c.context = .withinClassBody)
  noConstructor : ¬ (c.role = .classMethod ∧ c.name = "constructor")
  required : c.isOptionalMember = false

/-- Whether a function that is no arrow function yet may be reported (the gates of
    `functionVerdict`). -/
structure IsConvertible (c : Candidate) (o : Options) : Prop where
  safe : c.IsSafe
  place : c.prototypeGate? o = none
  body : c.singleReturnGate? o = none

/-- The messages with which `c` is reported under `o`, by the shape of `c`. -/
inductive Asks (c : Candidate) (o : Options) : Message → Prop
  | function (shape : c.shape = .defaultExport ∨ c.shape = .plainFunction)
      (convertible : c.IsConvertible o) : Asks c o (c.arrowMessage o)
  | member (shape : c.shape = .propertyValue) (admitted : c.IsAdmitted o)
      (convertible : c.IsConvertible o) : Asks c o (c.arrowMessage o)
  | expressionBody (shape : c.shape = .arrowExpressionBody) (style : o.returnStyle = .explicit)
      (safe : c.IsSafe) (place : c.prototypeGate? o = none) : Asks c o .useExplicit
  | singleReturn (shape : c.shape = .arrowSingleReturn) (style : o.returnStyle = .implicit)
      (returns : c.returnsImmediately = true) (safe : c.IsSafe)
      (place : c.prototypeGate? o = none) : Asks c o .useImplicit

/-! ## Verdicts -/

theorem unless_eq_report {obstacle : Option Obstacle} {m' : Message} :
    Verdict.unless obstacle m' = .report m ↔ obstacle = none ∧ m' = m := by
  cases obstacle with
  | none => simp [Verdict.unless]
  | some obstacle => simp [Verdict.unless]

theorem blocking?_eq_none_iff :
    c.blocking? o = .ok none ↔ c.IsSafe ∧ c.prototypeGate? o = none := by
  unfold blocking?
  split
  · next hg =>
    simpa using fun hs : c.IsSafe => absurd hg (by simp [hs.noGenerator])
  · next hg =>
    have hg : c.isGenerator = false := by simpa using hg
    rw [map_eq_ok_iff]
    constructor
    · rintro ⟨found, hf, hnone⟩
      -- neither the search nor the place has given an obstacle
      rw [Option.orElse_eq_orElse, Option.orElse_eq_or, Option.or_eq_none_iff] at hnone
      obtain ⟨rfl, hp⟩ := hnone
      exact ⟨⟨hg, hf⟩, hp⟩
    · rintro ⟨hs, hp⟩
      exact ⟨none, hs.unbound, hp⟩

theorem functionVerdict_eq_report_iff :
    c.functionVerdict o = .ok (.report m) ↔ c.IsConvertible o ∧ c.arrowMessage o = m := by
  unfold functionVerdict
  rw [map_eq_ok_iff]
  constructor
  · rintro ⟨found, hf, h⟩
    obtain ⟨hnone, hm⟩ := unless_eq_report.1 h
    rw [Option.orElse_eq_orElse, Option.orElse_eq_or, Option.or_eq_none_iff] at hnone
    obtain ⟨rfl, hbody⟩ := hnone
    obtain ⟨hs, hp⟩ := blocking?_eq_none_iff.1 hf
    exact ⟨⟨hs, hp, hbody⟩, hm⟩
  · rintro ⟨hc, hm⟩
    refine ⟨none, blocking?_eq_none_iff.2 ⟨hc.safe, hc.place⟩, unless_eq_report.2 ⟨?_, hm⟩⟩
    exact hc.body

/-- A member that `IsAdmitted` gets the verdict of any other function. -/
theorem propertyVerdict_of_isAdmitted (h : c.IsAdmitted o) :
    c.propertyVerdict o = c.functionVerdict o := by
  have hplace : ¬ ((c.role == .classMethod || c.context == .withinClassBody) &&
      !o.classPropertiesAllowed) = true := by
    simp only [Bool.and_eq_true, Bool.or_eq_true, beq_iff_eq, Bool.not_eq_true']
    rintro ⟨hin, hoff⟩
    rcases h.place with hon | hout
    · simp [hoff] at hon
    · exact hout hin
  have hcon : ¬ (c.role == .classMethod && c.name == "constructor") = true := by
    simpa using h.noConstructor
  have hopt : ¬ c.isOptionalMember = true := by simp [h.required]
  rw [propertyVerdict, if_neg hplace, if_neg hcon, if_neg hopt]

/-- A member that is not admitted is skipped, with some obstacle. -/
theorem exists_skip_of_not_isAdmitted (h : ¬ c.IsAdmitted o) :
    ∃ obstacle, c.propertyVerdict o = .ok (.skip obstacle) := by
  unfold propertyVerdict
  split
  · exact ⟨_, rfl⟩
  · next hplace =>
    split
    · exact ⟨_, rfl⟩
    · next hcon =>
      split
      · exact ⟨_, rfl⟩
      · next hopt =>
        -- all three tests have been passed, so the member is admitted
        simp only [Bool.and_eq_true, Bool.or_eq_true, beq_iff_eq, Bool.not_eq_true'] at hplace hcon
        refine absurd ⟨?_, hcon, by simpa using hopt⟩ h
        cases ho : o.classPropertiesAllowed with
        | true => exact .inl rfl
        | false => exact .inr fun hin => hplace ⟨hin, ho⟩

theorem propertyVerdict_eq_report_iff :
    c.propertyVerdict o = .ok (.report m) ↔
      c.IsAdmitted o ∧ c.IsConvertible o ∧ c.arrowMessage o = m := by
  by_cases ha : c.IsAdmitted o
  · rw [propertyVerdict_of_isAdmitted ha, functionVerdict_eq_report_iff]
    exact ⟨fun h => ⟨ha, h⟩, fun h => h.2⟩
  · obtain ⟨obstacle, hskip⟩ := exists_skip_of_not_isAdmitted ha
    rw [hskip]
    exact iff_of_false (by simp) fun h => ha h.1

theorem expressionBodyVerdict_eq_report_iff :
    c.expressionBodyVerdict o = .ok (.report m) ↔
      o.returnStyle = .explicit ∧ (c.IsSafe ∧ c.prototypeGate? o = none) ∧ .useExplicit = m := by
  unfold expressionBodyVerdict
  split
  · next hstyle =>
    exact iff_of_false (by simp) fun h => absurd h.1 (by simpa using hstyle)
  · next hstyle =>
    have hs : o.returnStyle = .explicit := by simpa using hstyle
    rw [map_eq_ok_iff, ← blocking?_eq_none_iff]
    constructor
    · rintro ⟨found, hf, h⟩
      obtain ⟨rfl, hm⟩ := unless_eq_report.1 h
      exact ⟨hs, hf, hm⟩
    · rintro ⟨-, hf, hm⟩
      exact ⟨none, hf, unless_eq_report.2 ⟨rfl, hm⟩⟩

theorem singleReturnVerdict_eq_report_iff :
    c.singleReturnVerdict o = .ok (.report m) ↔
      o.returnStyle = .implicit ∧ c.returnsImmediately = true ∧
        (c.IsSafe ∧ c.prototypeGate? o = none) ∧ .useImplicit = m := by
  unfold singleReturnVerdict
  split
  · next hstyle =>
    exact iff_of_false (by simp) fun h => absurd h.1 (by simpa using hstyle)
  · next hstyle =>
    have hs : o.returnStyle = .implicit := by simpa using hstyle
    split
    · next hreturn =>
      exact iff_of_false (by simp) fun h => by simp [h.2.1] at hreturn
    · next hreturn =>
      have hr : c.returnsImmediately = true := by simpa using hreturn
      rw [map_eq_ok_iff, ← blocking?_eq_none_iff]
      constructor
      · rintro ⟨found, hf, h⟩
        obtain ⟨rfl, hm⟩ := unless_eq_report.1 h
        exact ⟨hs, hr, hf, hm⟩
      · rintro ⟨-, -, hf, hm⟩
        exact ⟨none, hf, unless_eq_report.2 ⟨rfl, hm⟩⟩

/-- The `verdict` is to report `m` just when `c` `Asks` for it. -/
theorem verdict_eq_report_iff : c.verdict o = .ok (.report m) ↔ c.Asks o m := by
  unfold verdict
  constructor
  · intro h
    split at h
    · next hs =>
      obtain ⟨hc, rfl⟩ := functionVerdict_eq_report_iff.1 h
      exact .function (.inl hs) hc
    · next hs =>
      obtain ⟨hc, rfl⟩ := functionVerdict_eq_report_iff.1 h
      exact .function (.inr hs) hc
    · next hs =>
      obtain ⟨ha, hc, rfl⟩ := propertyVerdict_eq_report_iff.1 h
      exact .member hs ha hc
    · next hs =>
      obtain ⟨hstyle, ⟨hsafe, hplace⟩, rfl⟩ := expressionBodyVerdict_eq_report_iff.1 h
      exact .expressionBody hs hstyle hsafe hplace
    · next hs =>
      obtain ⟨hstyle, hr, ⟨hsafe, hplace⟩, rfl⟩ := singleReturnVerdict_eq_report_iff.1 h
      exact .singleReturn hs hstyle hr hsafe hplace
  · intro h
    cases h with
    | function shape convertible =>
      rcases shape with shape | shape
      · rw [shape]
        exact functionVerdict_eq_report_iff.2 ⟨convertible, rfl⟩
      · rw [shape]
        exact functionVerdict_eq_report_iff.2 ⟨convertible, rfl⟩
    | member shape admitted convertible =>
      rw [shape]
      exact propertyVerdict_eq_report_iff.2 ⟨admitted, convertible, rfl⟩
    | expressionBody shape style safe place =>
      rw [shape]
      exact expressionBodyVerdict_eq_report_iff.2 ⟨style, ⟨safe, place⟩, rfl⟩
    | singleReturn shape style returns safe place =>
      rw [shape]
      exact singleReturnVerdict_eq_report_iff.2 ⟨style, returns, ⟨safe, place⟩, rfl⟩

end Candidate

/-- The two shapes of arrow functions are found in nodes of the kind `arrowFunction` only. -/
theorem Node.Makes.shape_of_ne_arrowFunction {n : Node} {c : Candidate} (h : n.Makes c)
    (hk : n.kind ≠ .arrowFunction) :
    c.shape ≠ .arrowExpressionBody ∧ c.shape ≠ .arrowSingleReturn := by
  cases h.form with
  | defaultExport _ _ _ shape => simp [shape]
  | plain _ _ _ shape => simp [shape]
  | memberValue _ _ _ _ _ shape => simp [shape]
  | method _ shape => simp [shape]
  | arrowExpression kind => exact absurd kind hk
  | arrowReturn kind => exact absurd kind hk

/-! ## Violations -/

/-- The `Violation` that reports `c` with the message `m` and the `fix`. -/
def Rule.violationOf (rule : Rule) (path : String) (c : Candidate) (m : Message) (fix : Fix) :
    Violation :=
  { code := m.id
    message := rule.texts.textFor m.id
    location := locationOf c.node path
    line := c.node.line
    fix := fix }

/-- The rule reports `v` just when `c` `Asks` for a message, and its `descriptor` gives a `fix` in
    the wanted style; then `v` is their `violationOf`. -/
theorem Rule.judge_eq_violation_iff {rule : Rule} {path : String} {v : Violation} :
    rule.judge path c = .ok (.violation v) ↔
      ∃ m d fix, c.Asks rule.options m ∧ c.descriptor = .ok d ∧
        c.fix d rule.options.returnStyle = .ok fix ∧ v = rule.violationOf path c m fix := by
  constructor
  · intro h
    obtain ⟨m, d, hverdict, hd, hfix, hv⟩ := judge_eq_violation h
    exact ⟨m, d, v.fix, Candidate.verdict_eq_report_iff.1 hverdict, hd, hfix, hv⟩
  · rintro ⟨m, d, fix, hasks, hd, hfix, rfl⟩
    unfold judge
    rw [Candidate.verdict_eq_report_iff.2 hasks]
    simp only [bind, Except.bind, hd, hfix]
    rfl

end ArrowLint
