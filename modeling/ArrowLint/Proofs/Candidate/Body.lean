/-
  ArrowLint.Proofs.Candidate.Body

  What the body of a function gives. A block returns an expression if it holds the return of that
  expression and nothing else, remarks apart (`Node.Returns`). The expression is looked for twice:
  when the function is classified, by way of a statement that has to be a return, and when its
  arrow function is written, by way of the only statement, whatever that is.

    * `Node.returns_iff` and `Node.bodyShape_eq_blockSingleReturn_iff`: the first search, and the
      shape that a body is given on account of it, go by what the block returns;
    * `Node.returnedExpression_of_singleReturn`: where the first search finds an expression, the
      second one finds the same.
-/

import ArrowLint.Candidate.Classify
import ArrowLint.Fix.Render
import ArrowLint.Proofs.Syntax.Place

namespace ArrowLint

namespace Node

variable {n body block statement expression e e' : Node}

/-- Whether `block` holds the return of `expression` and nothing else. -/
def Returns (block expression : Node) : Prop :=
  block.kind = .statementBlock ∧ ∃ statement, block.statements = [statement] ∧
    statement.kind = .returnStatement ∧ statement.statements.head? = some expression

/-! ## The two searches -/

theorem singleReturn_eq_some_iff :
    block.singleReturn = some statement ↔
      block.statements = [statement] ∧ statement.kind = .returnStatement := by
  unfold singleReturn
  constructor
  · intro h
    split at h
    · next only hstatements =>
      split at h
      · next hk =>
        obtain rfl := Option.some.inj h
        exact ⟨hstatements, beq_iff_eq.1 hk⟩
      · cases h
    · cases h
  · rintro ⟨hstatements, hk⟩
    rw [hstatements]
    simp [hk]

/-- A block `Returns` the argument of its `singleReturn`. -/
theorem returns_iff :
    block.Returns expression ↔
      block.kind = .statementBlock ∧ block.singleReturn.bind returnArgument = some expression := by
  simp only [Returns, Option.bind_eq_some_iff, singleReturn_eq_some_iff, and_assoc]
  rfl

/-- What `singleReturn` and `returnArgument` find is the `returnedExpression` of the block. -/
theorem returnedExpression_of_singleReturn
    (h : block.singleReturn.bind returnArgument = some expression) :
    block.returnedExpression = some expression := by
  obtain ⟨statement, hs, he⟩ := Option.bind_eq_some_iff.1 h
  rw [returnedExpression, (singleReturn_eq_some_iff.1 hs).1]
  exact he

theorem Returns.returnedExpression_eq (h : block.Returns expression) :
    block.returnedExpression = some expression :=
  returnedExpression_of_singleReturn (returns_iff.1 h).2

theorem Returns.unique (h : block.Returns e) (h' : block.Returns e') : e = e' :=
  Option.some.inj (h.returnedExpression_eq.symm.trans h'.returnedExpression_eq)

/-- What a block `Returns` lies in it. -/
theorem Returns.contains (h : block.Returns expression) : block.Contains expression := by
  obtain ⟨-, statement, hs, -, he⟩ := h
  have hstatement : statement ∈ block.statements := by rw [hs]; exact List.mem_cons_self
  have hexpression : expression ∈ statement.statements := List.mem_of_mem_head? he
  exact .inside (mem_children_of_mem_statements hstatement)
    (contains_of_mem_children (mem_children_of_mem_statements hexpression))

/-! ## The shape of a body -/

theorem bodyShape_eq_expressionBody_iff (hb : n.field .body = some body) :
    n.bodyShape = .expressionBody ↔ body.kind ≠ .statementBlock := by
  unfold bodyShape
  rw [hb]
  dsimp only
  split
  · next hk => simpa using hk
  · next hk =>
    have hk : body.kind = .statementBlock := by simpa using hk
    split
    · simp [hk]
    · simp [hk]

/-- A body has the shape `blockSingleReturn` just when it `Returns` an expression. -/
theorem bodyShape_eq_blockSingleReturn_iff (hb : n.field .body = some body) :
    n.bodyShape = .blockSingleReturn ↔ ∃ expression, body.Returns expression := by
  unfold bodyShape
  rw [hb]
  dsimp only
  split
  · next hk =>
    have hk : body.kind ≠ .statementBlock := by simpa using hk
    exact iff_of_false (by simp) fun ⟨_, hreturns⟩ => hk hreturns.1
  · next hk =>
    have hk : body.kind = .statementBlock := by simpa using hk
    split
    · next argument ha => exact iff_of_true rfl ⟨argument, returns_iff.2 ⟨hk, ha⟩⟩
    · next hnone =>
      refine iff_of_false (by simp) fun ⟨_, hreturns⟩ => ?_
      rw [(returns_iff.1 hreturns).2] at hnone
      cases hnone

/-- A body of the shape `blockSingleReturn` is a block, with a `singleReturn` that has a
    `returnArgument`. -/
theorem exists_returnArgument (hb : n.field .body = some body)
    (hs : n.bodyShape = .blockSingleReturn) : body.kind = .statementBlock ∧
      ∃ statement argument, body.singleReturn = some statement ∧
        statement.returnArgument = some argument := by
  obtain ⟨argument, hreturns⟩ := (bodyShape_eq_blockSingleReturn_iff hb).1 hs
  obtain ⟨hk, harg⟩ := returns_iff.1 hreturns
  obtain ⟨statement, hstatement, harg⟩ := Option.bind_eq_some_iff.1 harg
  exact ⟨hk, statement, argument, hstatement, harg⟩

end Node

end ArrowLint
