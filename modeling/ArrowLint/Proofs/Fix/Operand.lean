/-
  ArrowLint.Proofs.Fix.Operand

  Function expressions as operands. A function expression may stand wherever an expression
  may, but an arrow function is too weak for an operand, for what is called and for what a
  member is taken of (`Node.IsOperand`): there it has to stand in parentheses.

  The fix for a function expression that is neither exported by default nor the value of a
  member is the bare arrow function wherever it stands (`Candidate.fixWith_of_expression`), so
  it is right just where the function is no operand; the one in `cb || function () {}` is left
  without the parentheses that it needs.
-/

import ArrowLint.Proofs.Candidate.Finding

namespace ArrowLint

open Node

/-- Whether a node stands where an arrow function would need parentheses: under an operator, as the
    condition of a choice, as what is called or constructed, or as what a member is taken of. -/
def Node.IsOperand (n : Node) : Prop :=
  ∃ parent, n.parent = some parent ∧
    (parent.kind = .binaryExpression ∨ parent.kind = .unaryExpression ∨
      (parent.kind = .ternaryExpression ∨ parent.kind = .callExpression) ∧
        parent.children.head? = some n ∨
      parent.kind = .newExpression ∨
      parent.kind = .memberExpression ∧ parent.field .object = some n)

/-- The given `text` in parentheses. -/
def parenthesised (text : String) : String :=
  "(" ++ text ++ ")"

theorem ne_parenthesised (text : String) : text ≠ parenthesised text := by
  intro h
  have hlen := congrArg String.length h
  rw [parenthesised, String.length_append, String.length_append] at hlen
  have hopen : "(".length = 1 := rfl
  have hclose : ")".length = 1 := rfl
  omega

/-- An expression that is no member's value is replaced by `arrow` alone. -/
theorem Candidate.fixWith_of_expression {c : Candidate} (hs : c.shape = .plainFunction)
    (hr : c.role = .expression) (he : c.isDefaultExport = false) (d : Descriptor)
    (arrow : Arrow) : c.fixWith d arrow = ⟨c.node.span, arrow.render⟩ := by
  unfold fixWith
  rw [hs, hr, he]
  rfl

/-- A function expression of the shape `plainFunction` has the role `expression`. -/
theorem Node.Makes.role_of_plainFunction {n : Node} {c : Candidate} (h : n.Makes c)
    (hk : n.kind = .functionExpression) (hs : c.shape = .plainFunction) :
    c.role = .expression ∧ c.isDefaultExport = false := by
  cases h.form with
  | plain kind _ _ _ _ _ isDefaultExport =>
    rcases kind with ⟨hd, -⟩ | ⟨-, hr⟩
    · rw [hk] at hd
      cases hd
    · exact ⟨hr, isDefaultExport⟩
  | defaultExport _ _ _ shape => rw [hs] at shape; cases shape
  | memberValue _ _ _ _ _ shape => rw [hs] at shape; cases shape
  | method _ shape => rw [hs] at shape; cases shape
  | arrowExpression _ _ _ shape => rw [hs] at shape; cases shape
  | arrowReturn _ _ _ _ shape => rw [hs] at shape; cases shape

namespace Rule

/-- The fix for a function expression of the shape `plainFunction` is the bare arrow function, with
    nothing around it. So if it `IsOperand` it gets no parentheses. -/
theorem fix_of_functionExpression (rule : Rule) (path : String) {n : Node} {c : Candidate}
    {v : Violation} (hc : n.candidate? = .ok (some c)) (hk : n.kind = .functionExpression)
    (hs : c.shape = .plainFunction) (hv : rule.check path n = .ok (.violation v)) :
    ∃ d arrow, c.descriptor = .ok d ∧
      d.arrow c.bodyShape rule.options.returnStyle = .ok arrow ∧
      v.fix = ⟨n.span, arrow.render⟩ ∧
      ((n.IsOperand → v.fix.text = parenthesised arrow.render) ↔ ¬ n.IsOperand) := by
  have hmakes := makes_of_candidate? hc
  obtain ⟨hr, he⟩ := hmakes.role_of_plainFunction hk hs
  rw [check_of_candidate? hc] at hv
  rcases judge_eq_ok hv with ⟨_, -, hskip⟩ | ⟨message, d, fix, -, hd, hfix, hreport⟩
  · cases hskip
  · obtain ⟨arrow, ha, hf⟩ := map_eq_ok_iff.1 hfix
    -- role and shape leave only the branch that adds nothing
    have hvfix : v.fix = ⟨n.span, arrow.render⟩ := by
      rw [Finding.violation.inj hreport, ← hmakes.node]
      exact hf.symm.trans (Candidate.fixWith_of_expression hs hr he d arrow)
    refine ⟨d, arrow, hd, ha, hvfix, fun hpar hop => ?_, fun hno hop => absurd hop hno⟩
    have htext := hpar hop
    rw [hvfix] at htext
    exact ne_parenthesised _ htext

end Rule

/-! ## An operand left bare -/

/-- The function in `cb || function () {}`. -/
def Tree.fallback : Tree :=
  .node (.ofText .functionExpression true 6 "function () \x7b\x7d" []) [
    .node (.ofText (.other "function") false 6 "function" []) [],
    .node (.ofText (.other "formal_parameters") true 15 "()" [.parameters]) [
      .node (.ofText (.other "(") false 15 "(" []) [],
      .node (.ofText (.other ")") false 16 ")" []) []],
    .node (.ofText .statementBlock true 18 "\x7b\x7d" [.body]) [
      .node (.ofText (.other "\x7b") false 18 "\x7b" []) [],
      .node (.ofText (.other "\x7d") false 19 "\x7d" []) []]]

/-- The function of `fallback` in its place behind the operator. -/
def Node.fallback : Node :=
  ⟨.fallback, [
    { label := .ofText .binaryExpression true 0 "cb || function () \x7b\x7d" []
      before := [
        .node (.ofText (.other "||") false 3 "||" []) [],
        .node (.ofText .identifier true 0 "cb" [.left]) []]
      after := [] },
    { label := .ofText (.other "expression_statement") true 0 "cb || function () \x7b\x7d" []
      before := [], after := [] },
    { label := .ofText (.other "program") true 0 "cb || function () \x7b\x7d" []
      before := [], after := [] }]⟩

theorem Node.isOperand_fallback : Node.fallback.IsOperand :=
  ⟨_, rfl, .inl rfl⟩

namespace Rule

/-- The fix for `fallback` is the arrow function and nothing else. -/
theorem fix_fallback : Node.fallback.whole.IsParseOf "cb || function () \x7b\x7d" ∧
    ∃ c v, Node.fallback.candidate? = .ok (some c) ∧ Node.fallback.kind = .functionExpression ∧
      c.shape = .plainFunction ∧
      check ⟨{}, .default⟩ "f.ts" Node.fallback = .ok (.violation v) ∧
      v.fix.text = "() => \x7b\x7d" ∧
      ∃ d arrow, c.descriptor = .ok d ∧ d.arrow c.bodyShape .unchanged = .ok arrow ∧
        v.fix = ⟨Node.fallback.span, arrow.render⟩ := by
  refine ⟨by decide, _, _, rfl, rfl, rfl, rfl, rfl, ?_⟩
  obtain ⟨d, arrow, hd, ha, hfix, -⟩ :=
    fix_of_functionExpression ⟨{}, .default⟩ "f.ts" (n := Node.fallback) rfl rfl rfl rfl
  exact ⟨d, arrow, hd, ha, hfix⟩

/-- A function that `IsOperand` is not put in parentheses. -/
theorem operand_unparenthesised :
    ¬ ∀ (rule : Rule) (path : String) (n : Node) (c : Candidate) (v : Violation),
      n.candidate? = .ok (some c) → n.kind = .functionExpression → c.shape = .plainFunction →
      n.IsOperand → rule.check path n = .ok (.violation v) →
      ∃ d arrow, c.descriptor = .ok d ∧
        d.arrow c.bodyShape rule.options.returnStyle = .ok arrow ∧
        v.fix.text = parenthesised arrow.render := by
  intro h
  obtain ⟨d, arrow, hd, ha, htext⟩ :=
    h ⟨{}, .default⟩ "f.ts" Node.fallback _ _ rfl rfl rfl isOperand_fallback rfl
  obtain rfl := Except.ok.inj hd
  obtain rfl := Except.ok.inj ha
  exact absurd htext (by decide)

end Rule

end ArrowLint
