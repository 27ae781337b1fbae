/-
  ArrowLint.Proofs.Candidate.Finding

  What the rule finds in a node. `Rule.judge_eq_ok` takes an answer of the rule apart: either
  something stands against the candidate, or it is reported with the fix that its descriptor
  gives (`Rule.judge_eq_violation`). `Rule.exists_check` says when there is an answer at all: in a
  legible tree the rule has one for every node, since a candidate never lacks a body.
-/

import ArrowLint.Lint
import ArrowLint.Proofs.Candidate.Origin

namespace ArrowLint

open Node

variable {n : Node} {c : Candidate} {o : Options} {rule : Rule} {path : String}

/-! ## Answers taken apart -/

namespace Rule

/-- A candidate is put on record with the obstacle of its `verdict`, or reported with the `fix` of
    its `descriptor`. -/
theorem judge_eq_ok {finding : Finding} (h : rule.judge path c = .ok finding) :
    (∃ obstacle, c.verdict rule.options = .ok (.skip obstacle) ∧
      finding = .skipped (skipRecord c path obstacle)) ∨
    ∃ message d fix, c.verdict rule.options = .ok (.report message) ∧ c.descriptor = .ok d ∧
      c.fix d rule.options.returnStyle = .ok fix ∧
      finding = .violation {
        code := message.id
        message := rule.texts.textFor message.id
        location := locationOf c.node path
        line := c.node.line
        fix := fix } := by
  obtain ⟨verdict, hv, h⟩ := bind_eq_ok_iff.1 h
  -- a report needs the descriptor and the fix to be there, too
  cases verdict with
  | skip obstacle => exact .inl ⟨obstacle, hv, (Except.ok.inj h).symm⟩
  | report message =>
    obtain ⟨d, hd, h⟩ := bind_eq_ok_iff.1 h
    obtain ⟨fix, hf, h⟩ := bind_eq_ok_iff.1 h
    exact .inr ⟨message, d, fix, hv, hd, hf, (Except.ok.inj h).symm⟩

theorem check_of_candidate? (h : n.candidate? = .ok (some c)) :
    rule.check path n = rule.judge path c := by
  rw [check, h]
  rfl

/-- A candidate that is reported has a verdict to report, a `descriptor` and a `fix`, and these make
    up `v`. -/
theorem judge_eq_violation {v : Violation} (h : rule.judge path c = .ok (.violation v)) :
    ∃ message d, c.verdict rule.options = .ok (.report message) ∧ c.descriptor = .ok d ∧
      c.fix d rule.options.returnStyle = .ok v.fix ∧
      v = {
        code := message.id
        message := rule.texts.textFor message.id
        location := locationOf c.node path
        line := c.node.line
        fix := v.fix } := by
  rcases judge_eq_ok h with ⟨_, -, hskip⟩ | ⟨message, d, fix, hverdict, hd, hfix, hv⟩
  · cases hskip
  · obtain rfl := Finding.violation.inj hv
    exact ⟨message, d, hverdict, hd, hfix, rfl⟩

/-- What `check` reports of `n`, `judge` reports of a candidate found in `n`. -/
theorem exists_judge_of_check {v : Violation} (h : rule.check path n = .ok (.violation v)) :
    ∃ c, n.candidate? = .ok (some c) ∧ rule.judge path c = .ok (.violation v) := by
  obtain ⟨found, hf, h⟩ := bind_eq_ok_iff.1 h
  cases found with
  | none => cases h
  | some c => exact ⟨c, hf, h⟩

/-- The fix that `check` reports of `n` is that of a candidate that `n` `Makes`. -/
theorem exists_of_check_eq_violation {v : Violation}
    (h : rule.check path n = .ok (.violation v)) :
    ∃ c d, n.Makes c ∧ c.descriptor = .ok d ∧ c.fix d rule.options.returnStyle = .ok v.fix := by
  obtain ⟨c, hc, hjudge⟩ := exists_judge_of_check h
  obtain ⟨_, d, -, hd, hfix, -⟩ := judge_eq_violation hjudge
  exact ⟨c, d, makes_of_candidate? hc, hd, hfix⟩

end Rule

/-! ## Verdicts in legible trees -/

theorem Node.exists_obstacle? (h : n.whole.IsLegible) : ∃ found, n.obstacle? = .ok found := by
  unfold obstacle?
  split
  · exact ⟨_, rfl⟩
  · split
    · exact ⟨_, rfl⟩
    · split
      · exact exists_map_eq_ok _ (exists_text h)
      · split
        · exact exists_map_eq_ok _ (exists_text h)
        · exact ⟨none, rfl⟩

/-- A node in `n.scanned` lies in the tree of `n`. -/
theorem Node.whole_of_mem_scanned {m : Node} (h : m ∈ n.scanned) : m.whole = n.whole := by
  unfold scanned at h
  split at h
  · obtain ⟨part, hp, hm⟩ := List.mem_flatMap.1 h
    obtain ⟨f, -, hf⟩ := List.mem_filterMap.1 hp
    rw [whole_of_mem_walk hm, whole_of_field hf]
  · exact whole_of_mem_walk h

namespace Candidate

theorem exists_blocking? (h : c.node.whole.IsLegible) : ∃ found, c.blocking? o = .ok found := by
  unfold blocking?
  split
  · exact ⟨_, rfl⟩
  · refine exists_map_eq_ok _ (exists_findSomeM?_eq_ok fun m hm => ?_)
    exact exists_obstacle? (by rwa [whole_of_mem_scanned hm])

theorem exists_functionVerdict (h : c.node.whole.IsLegible) :
    ∃ verdict, c.functionVerdict o = .ok verdict :=
  exists_map_eq_ok _ (exists_blocking? h)

theorem exists_propertyVerdict (h : c.node.whole.IsLegible) :
    ∃ verdict, c.propertyVerdict o = .ok verdict := by
  unfold propertyVerdict
  split
  · exact ⟨_, rfl⟩
  · split
    · exact ⟨_, rfl⟩
    · split
      · exact ⟨_, rfl⟩
      · exact exists_functionVerdict h

theorem exists_expressionBodyVerdict (h : c.node.whole.IsLegible) :
    ∃ verdict, c.expressionBodyVerdict o = .ok verdict := by
  unfold expressionBodyVerdict
  split
  · exact ⟨_, rfl⟩
  · exact exists_map_eq_ok _ (exists_blocking? h)

theorem exists_singleReturnVerdict (h : c.node.whole.IsLegible) :
    ∃ verdict, c.singleReturnVerdict o = .ok verdict := by
  unfold singleReturnVerdict
  split
  · exact ⟨_, rfl⟩
  · split
    · exact ⟨_, rfl⟩
    · exact exists_map_eq_ok _ (exists_blocking? h)

theorem exists_verdict (h : c.node.whole.IsLegible) : ∃ verdict, c.verdict o = .ok verdict := by
  unfold verdict
  split
  · exact exists_functionVerdict h
  · exact exists_functionVerdict h
  · exact exists_propertyVerdict h
  · exact exists_expressionBodyVerdict h
  · exact exists_singleReturnVerdict h

/-! ## Fixes in legible trees -/

theorem exists_mapM_text {p : Node} {ms : List Node} (h : p.whole.IsLegible)
    (hm : ∀ m ∈ ms, m ∈ p.children) : ∃ texts, ms.mapM Node.text = .ok texts :=
  exists_mapM_eq_ok fun m hms => exists_text (by rwa [whole_of_mem_children (hm m hms)])

theorem exists_parameterTexts (h : c.node.whole.IsLegible) :
    ∃ texts, c.parameterTexts = .ok texts := by
  unfold parameterTexts
  cases hb : c.node.field .parameter with
  | some bare => exact exists_map_eq_ok _ (exists_text (by rwa [whole_of_field hb]))
  | none =>
    cases hl : c.node.field .parameters with
    | none => exact ⟨[], rfl⟩
    | some list =>
      -- each parameter is a child of the list
      have hw : list.whole.IsLegible := by rwa [whole_of_field hl]
      exact exists_mapM_text hw fun m hm => mem_children_of_mem_statements hm

theorem exists_returnTypeText (h : c.node.whole.IsLegible) :
    ∃ text, c.returnTypeText = .ok text := by
  unfold returnTypeText
  split
  · exact exists_fieldText h .returnType
  · exact ⟨"", rfl⟩

theorem exists_modifierTexts (h : ∀ entry, c.entry = some entry → entry.whole.IsLegible) :
    ∃ texts, c.modifierTexts = .ok texts := by
  unfold modifierTexts
  cases he : c.entry with
  | none => exact ⟨[], rfl⟩
  | some entry =>
    dsimp only
    split
    · exact ⟨[], rfl⟩
    · -- what is taken over stands directly in the member
      refine exists_mapM_text (h entry he) fun m hm => ?_
      exact mem_children_of_mem_tokensBefore (List.mem_filter.1 hm).1

end Candidate

/-- The `returnedExpression` of a block lies in the tree of the block. -/
theorem Node.whole_of_returnedExpression {block expression : Node}
    (h : block.returnedExpression = some expression) : expression.whole = block.whole := by
  unfold returnedExpression at h
  split at h
  · next statement hs =>
    have hm : statement ∈ block.statements := by rw [hs]; exact List.mem_cons_self
    rw [whole_of_mem_children (mem_children_of_mem_statements (List.mem_of_mem_head? h)),
      whole_of_mem_children (mem_children_of_mem_statements hm)]
  · cases h

theorem exists_bodyText {body : Node} (h : body.whole.IsLegible) (shape : BodyShape)
    (style : ReturnStyle) : ∃ text, bodyText shape body style = .ok text := by
  unfold bodyText
  dsimp only
  split
  · next expression he =>
    refine exists_map_eq_ok _ (exists_text ?_)
    split at he
    · rwa [whole_of_returnedExpression he]
    · cases he
  · exact exists_map_eq_ok _ (exists_text h)

namespace Node.Makes

/-- The `entry` of a candidate is the method itself, or the parent that holds `n` under `value`. -/
theorem method_or_value (h : n.Makes c) {entry : Node} (he : c.entry = some entry) :
    n.kind = .methodDefinition ∧ entry = n ∨
      n.parent = some entry ∧ entry.field .value = some n := by
  cases h.form with
  | memberValue _ parent_eq _ _ isValue _ _ _ _ _ entry_eq =>
    rw [entry_eq] at he
    obtain rfl := Option.some.inj he
    exact .inr ⟨parent_eq, field_of_isParentField parent_eq isValue⟩
  | method kind _ _ _ _ _ _ entry_eq =>
    rw [entry_eq] at he
    exact .inl ⟨kind, (Option.some.inj he).symm⟩
  | defaultExport _ _ _ _ _ _ entry_eq => simp [entry_eq] at he
  | plain _ _ _ _ _ entry_eq => simp [entry_eq] at he
  | arrowExpression _ _ _ _ _ _ entry_eq => simp [entry_eq] at he
  | arrowReturn _ _ _ _ _ _ _ entry_eq => simp [entry_eq] at he

theorem entry_eq (h : n.Makes c) {entry : Node} (he : c.entry = some entry) :
    entry = n ∨ n.parent = some entry :=
  (h.method_or_value he).imp And.right And.left

theorem whole_entry (h : n.Makes c) {entry : Node} (he : c.entry = some entry) :
    entry.whole = n.whole := by
  rcases h.entry_eq he with rfl | hp
  · rfl
  · exact whole_of_parent hp

/-- A candidate in a legible tree has a `descriptor`. -/
theorem exists_descriptor (h : n.Makes c) (hl : n.whole.IsLegible) :
    ∃ d, c.descriptor = .ok d ∧ n.field .body = some d.body := by
  obtain ⟨body, hb⟩ := h.body
  have hn : c.node.whole.IsLegible := by rwa [h.node]
  obtain ⟨parameters, hp⟩ := Candidate.exists_parameterTexts hn
  obtain ⟨returnType, hr⟩ := Candidate.exists_returnTypeText hn
  obtain ⟨typeParameters, ht⟩ := exists_fieldText hn .typeParameters
  obtain ⟨modifiers, hm⟩ := Candidate.exists_modifierTexts (c := c) fun entry he => by
    rwa [h.whole_entry he]
  refine ⟨{ name := c.name, isAsync := c.isAsync, parameters := parameters, body := body
            returnType := returnType, typeParameters := typeParameters
            modifiers := modifiers }, ?_, hb⟩
  unfold Candidate.descriptor
  rw [h.node, hb]
  dsimp only
  rw [← h.node, hp, hr, ht, hm]
  rfl

/-- In a legible tree the `descriptor` of a candidate gives a `fix` in every style. -/
theorem exists_fix (h : n.Makes c) (hl : n.whole.IsLegible) (style : ReturnStyle) :
    ∃ d fix, c.descriptor = .ok d ∧ c.fix d style = .ok fix := by
  obtain ⟨d, hd, hb⟩ := h.exists_descriptor hl
  obtain ⟨text, ht⟩ := exists_bodyText (by rwa [whole_of_field hb]) c.bodyShape style
  have ha : ∃ arrow, d.arrow c.bodyShape style = .ok arrow := exists_map_eq_ok _ ⟨text, ht⟩
  obtain ⟨fix, hf⟩ := exists_map_eq_ok (c.fixWith d) ha
  exact ⟨d, fix, hd, hf⟩

end Node.Makes

/-! ## Answers -/

namespace Rule

theorem exists_judge (rule : Rule) (path : String) (h : n.Makes c) (hl : n.whole.IsLegible) :
    ∃ finding, rule.judge path c = .ok finding := by
  obtain ⟨verdict, hv⟩ := c.exists_verdict (o := rule.options) (by rwa [h.node])
  unfold judge
  rw [hv]
  cases verdict with
  | skip obstacle => exact ⟨_, rfl⟩
  | report message =>
    obtain ⟨d, fix, hd, hf⟩ := h.exists_fix hl rule.options.returnStyle
    simp only [bind, Except.bind, hd, hf]
    exact ⟨_, rfl⟩

/-- In a legible tree `check` has an answer for every node. -/
theorem exists_check (rule : Rule) (path : String) (hl : n.whole.IsLegible) :
    ∃ finding, rule.check path n = .ok finding := by
  obtain ⟨found, hf⟩ := exists_candidate? hl
  cases found with
  | none => exact ⟨.none, by rw [check, hf]; rfl⟩
  | some c =>
    rw [check_of_candidate? hf]
    exact exists_judge rule path (makes_of_candidate? hf) hl

end Rule

end ArrowLint
