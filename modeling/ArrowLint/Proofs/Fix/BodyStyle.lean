/-
  ArrowLint.Proofs.Fix.BodyStyle

  The body of the arrow function that a fix writes. Three equations say what it is made of, going
  by the body of the function alone: the expression that a block returns, a block as it is, or an
  expression with or without a block around it. From these follows what each return style asks of
  the body (`Candidate.ObeysStyle`), and that a linter with the same options has nothing more to
  report of it once it is read again (`Rule.body_obeys_style`).
-/

import ArrowLint.Proofs.Fix.Operand
import ArrowLint.Proofs.Fix.Parts
import ArrowLint.Proofs.Lint.Style

namespace ArrowLint

open Node

/-! ## What is asked of a body -/

/-- Whether `text` is that of the expression `e` as it stands in place of a block: in parentheses
    where it would be read as a block or would end too early, and else as it is. -/
structure Node.IsLiftedAs (e : Node) (source text : String) : Prop where
  source_eq : e.text = .ok source
  form : text = source ∨ text = parenthesised source
  parenthesised_iff : text = parenthesised source ↔
    e.kind = .object ∨ e.kind = .sequenceExpression ∨ source.toList.head? = some '\x7b'
  noBrace : text.toList.head? ≠ some '\x7b'

/-- What a return `style` asks of the `text` that is written for the `body` of a candidate. -/
structure Candidate.ObeysStyle (c : Candidate) (style : ReturnStyle) (body : Node)
    (text : String) : Prop where
  explicit : style = .explicit →
    (body.kind = .statementBlock ∧ body.text = .ok text) ∨
    (body.kind ≠ .statementBlock ∧
      ∃ source, body.text = .ok source ∧ text = "\x7b return " ++ source ++ " \x7d")
  lifted : style ≠ .explicit → ∀ e, body.Returns e → ∃ source, e.IsLiftedAs source text
  /-- In the style `implicit`, a function that `returnsImmediately` has no block for its body. -/
  immediate : style = .implicit → c.returnsImmediately = true →
    (∃ e source, body.Returns e ∧ e.IsLiftedAs source text) ∨
    (body.kind ≠ .statementBlock ∧ body.text = .ok text)
  verbatim : body.kind = .statementBlock → (style = .explicit ∨ ∀ e, ¬body.Returns e) →
    body.text = .ok text

/-- Whether `b` is what `text` is read as where the body of an arrow function stands: a block just
    when it starts with a brace. A text that is that of `body` is read the same way. -/
structure Node.IsReadAgain (b body : Node) (text : String) : Prop where
  text_eq : b.text = .ok text
  block_iff : b.kind = .statementBlock ↔ text.toList.head? = some '\x7b'
  verbatim : body.text = .ok text → (b.kind = .statementBlock ↔ body.kind = .statementBlock) ∧
    ((∃ e, b.Returns e) ↔ ∃ e, body.Returns e)

/-! ## Expressions in place of blocks -/

namespace Node

variable {n body e : Node} {c : Candidate} {style : ReturnStyle} {text : String}

theorem needsParentheses_iff {kind : Kind} : needsParentheses kind text = true ↔
    kind = .object ∨ kind = .sequenceExpression ∨ text.toList.head? = some '\x7b' := by
  simp [needsParentheses, or_assoc]

theorem exists_isLiftedAs (h : e.asImplicitBody = .ok text) :
    ∃ source, e.IsLiftedAs source text := by
  obtain ⟨source, hsource, rfl⟩ := map_eq_ok_iff.1 h
  refine ⟨source, ?_⟩
  by_cases hneeds : needsParentheses e.kind source = true
  · rw [if_pos hneeds]
    exact ⟨hsource, .inr rfl, iff_of_true rfl (needsParentheses_iff.1 hneeds), by simp⟩
  · rw [if_neg hneeds]
    have hnone := mt needsParentheses_iff.2 hneeds
    exact ⟨hsource, .inl rfl, iff_of_false (ne_parenthesised source) hnone,
      fun hbrace => hnone (.inr (.inr hbrace))⟩

/-! ## Bodies -/

/-- A block that `Returns` an expression gives way to it unless the style is `explicit`. -/
theorem bodyText_of_returns (hb : n.field .body = some body) (hr : body.Returns e)
    (hs : style ≠ .explicit) : bodyText n.bodyShape body style = e.asImplicitBody := by
  have hshape := (bodyShape_eq_blockSingleReturn_iff hb).2 ⟨e, hr⟩
  simp [bodyText, hshape, hs, hr.returnedExpression_eq]

/-- Any other block stays as it is, and so does every block if the style is `explicit`. -/
theorem bodyText_of_block (hb : n.field .body = some body) (hk : body.kind = .statementBlock)
    (hkeep : style = .explicit ∨ ∀ e, ¬body.Returns e) :
    bodyText n.bodyShape body style = body.text := by
  have hlift : (n.bodyShape == .blockSingleReturn && style != .explicit) = false := by
    rcases hkeep with rfl | hnone
    · simp
    · have hshape : n.bodyShape ≠ .blockSingleReturn :=
        mt (bodyShape_eq_blockSingleReturn_iff hb).1 fun ⟨e, he⟩ => hnone e he
      simp [hshape]
  have hshape : (n.bodyShape == .expressionBody) = false := by
    simpa using mt (bodyShape_eq_expressionBody_iff hb).1 (not_not_intro hk)
  unfold bodyText
  rw [hlift, hshape]
  cases body.text <;> rfl

/-- A body that is no block is put in one unless the style is `implicit`. -/
theorem bodyText_of_expression (hb : n.field .body = some body)
    (hk : body.kind ≠ .statementBlock) :
    bodyText n.bodyShape body style = body.text.map fun source =>
      if style = .implicit then source else "\x7b return " ++ source ++ " \x7d" := by
  have hshape := (bodyShape_eq_expressionBody_iff hb).2 hk
  unfold bodyText
  rw [hshape]
  cases style <;> rfl

/-- A candidate `returnsImmediately` just when its body is no block, or one that `Returns`
    something. -/
theorem Makes.returnsImmediately_iff (h : n.Makes c) (hb : n.field .body = some body) :
    c.returnsImmediately = true ↔ (∃ e, body.Returns e) ∨ body.kind ≠ .statementBlock := by
  rw [← bodyShape_eq_blockSingleReturn_iff hb, ← bodyShape_eq_expressionBody_iff hb,
    ← h.bodyShape]
  simp [Candidate.returnsImmediately]

/-- The `bodyText` that is written for a candidate is as the style asks. -/
theorem Makes.obeysStyle (h : n.Makes c) (hb : n.field .body = some body)
    (ht : bodyText c.bodyShape body style = .ok text) : c.ObeysStyle style body text := by
  rw [h.bodyShape] at ht
  have hlifted : style ≠ .explicit → ∀ e, body.Returns e → ∃ source, e.IsLiftedAs source text :=
    fun hs e he => exists_isLiftedAs (bodyText_of_returns hb he hs ▸ ht)
  have hverbatim : body.kind = .statementBlock → (style = .explicit ∨ ∀ e, ¬body.Returns e) →
      body.text = .ok text :=
    fun hk hkeep => bodyText_of_block hb hk hkeep ▸ ht
  refine ⟨fun hs => ?_, hlifted, fun hs himmediate => ?_, hverbatim⟩
  · by_cases hk : body.kind = .statementBlock
    · exact .inl ⟨hk, hverbatim hk (.inl hs)⟩
    · rw [bodyText_of_expression hb hk] at ht
      obtain ⟨source, hsource, rfl⟩ := map_eq_ok_iff.1 ht
      exact .inr ⟨hk, source, hsource, if_neg (by simp [hs])⟩
  · rcases (h.returnsImmediately_iff hb).1 himmediate with ⟨e, he⟩ | hk
    · obtain ⟨source, hsource⟩ := hlifted (by simp [hs]) e he
      exact .inl ⟨e, source, he, hsource⟩
    · rw [bodyText_of_expression hb hk] at ht
      obtain ⟨source, hsource, rfl⟩ := map_eq_ok_iff.1 ht
      exact .inr ⟨hk, by rw [if_pos hs, hsource]⟩

end Node

namespace Rule

variable {rule : Rule} {path : String} {n m body b : Node} {c : Candidate} {text : String}
  {v w : Violation}

/-! ## Reading the body again -/

/-- An arrow function whose body is read again from a text that `ObeysStyle` is not reported. -/
theorem check_ne_violation_of_obeysStyle (h : c.ObeysStyle rule.options.returnStyle body text)
    (hmakes : n.Makes c) (hbody : n.field .body = some body) (hk : m.kind = .arrowFunction)
    (hb : m.field .body = some b) (hread : b.IsReadAgain body text) :
    rule.check path m ≠ .ok (.violation w) := by
  intro hv
  rcases body_of_check hv hk with ⟨hstyle, b', hb', hne⟩ |
    ⟨hstyle, b', statement, argument, hb', hblock, hstatement, hargument⟩
  · -- where blocks are wanted, the text is that of one
    obtain rfl := Option.some.inj (hb.symm.trans hb')
    rcases h.explicit hstyle with ⟨hblock, htext⟩ | ⟨-, source, -, rfl⟩
    · exact hne ((hread.verbatim htext).1.2 hblock)
    · exact hne (hread.block_iff.2 (by simp))
  · -- where expressions are wanted, a block is there only if there is nothing to take from it
    obtain rfl := Option.some.inj (hb.symm.trans hb')
    have hreturns : b.Returns argument :=
      returns_iff.2 ⟨hblock, by rw [hstatement]; exact hargument⟩
    by_cases himmediate : c.returnsImmediately = true
    · rcases h.immediate hstyle himmediate with ⟨e, source, -, hlifted⟩ | ⟨hne, htext⟩
      · exact hlifted.noBrace (hread.block_iff.1 hblock)
      · exact hne ((hread.verbatim htext).1.1 hblock)
    · rw [hmakes.returnsImmediately_iff hbody, not_or, not_not] at himmediate
      obtain ⟨hnone, hbodyBlock⟩ := himmediate
      have htext := h.verbatim hbodyBlock (.inr fun e he => hnone ⟨e, he⟩)
      exact hnone ((hread.verbatim htext).2.1 ⟨argument, hreturns⟩)

/-- In every fix that is reported, the body of the arrow function `ObeysStyle`. So no arrow function
    whose body `IsReadAgain` from it is reported, whatever stands around it. -/
theorem body_obeys_style (hv : rule.check path n = .ok (.violation v)) :
    ∃ c body a lead tail, n.candidate? = .ok (some c) ∧ n.field .body = some body ∧
      n.Becomes rule.options.returnStyle a ∧ v.fix.text = lead ++ a.render ++ tail ∧
      c.ObeysStyle rule.options.returnStyle body a.body ∧
      ∀ path' m b, m.kind = .arrowFunction → m.field .body = some b →
        b.IsReadAgain body a.body → ∀ w, rule.check path' m ≠ .ok (.violation w) := by
  obtain ⟨a, lead, tail, hbecomes, htext⟩ := exists_becomes_of_check hv
  obtain ⟨c, d, hc, hd, ha⟩ := hbecomes
  have hmakes := makes_of_candidate? hc
  have hbody : n.field .body = some d.body := by
    rw [← hmakes.node]
    exact (Candidate.describes_of_descriptor hd).body
  have hobeys : c.ObeysStyle rule.options.returnStyle d.body a.body := by
    obtain ⟨text, ht, rfl⟩ := map_eq_ok_iff.1 ha
    exact hmakes.obeysStyle hbody ht
  exact ⟨c, d.body, a, lead, tail, hc, hbody, ⟨c, d, hc, hd, ha⟩, htext, hobeys,
    fun path' m b hk hb hread w => check_ne_violation_of_obeysStyle hobeys hmakes hbody hk hb hread⟩

end Rule

/-! ## An empty object -/

/-- The function in `function f() { return {}; }`. -/
def Tree.emptyObject : Tree :=
  .node (.ofText .functionDeclaration true 0 "function f() \x7b return \x7b\x7d; \x7d" []) [
    .node (.ofText (.other "function") false 0 "function" []) [],
    .node (.ofText .identifier true 9 "f" [.name]) [],
    .node (.ofText (.other "formal_parameters") true 10 "()" [.parameters]) [
      .node (.ofText (.other "(") false 10 "(" []) [],
      .node (.ofText (.other ")") false 11 ")" []) []],
    .node (.ofText .statementBlock true 13 "\x7b return \x7b\x7d; \x7d" [.body]) [
      .node (.ofText (.other "\x7b") false 13 "\x7b" []) [],
      .node (.ofText .returnStatement true 15 "return \x7b\x7d;" []) [
        .node (.ofText (.other "return") false 15 "return" []) [],
        .node (.ofText .object true 22 "\x7b\x7d" []) [
          .node (.ofText (.other "\x7b") false 22 "\x7b" []) [],
          .node (.ofText (.other "\x7d") false 23 "\x7d" []) []],
        .node (.ofText .semicolon false 24 ";" []) []],
      .node (.ofText (.other "\x7d") false 26 "\x7d" []) []]]

/-- The function of `emptyObject` in its program. -/
def Node.emptyObject : Node :=
  ⟨.emptyObject, [⟨.ofText (.other "program") true 0
    "function f() \x7b return \x7b\x7d; \x7d" [], [], []⟩]⟩

theorem Node.isParseOf_emptyObject :
    Node.emptyObject.whole.IsParseOf "function f() \x7b return \x7b\x7d; \x7d" := by
  decide

/-- The arrow function in `const f = () => ({});`. -/
def Node.emptyObjectArrow : Node :=
  .root (.node (.ofText .arrowFunction true 10 "() => (\x7b\x7d)" []) [
    .node (.ofText (.other "formal_parameters") true 10 "()" [.parameters]) [
      .node (.ofText (.other "(") false 10 "(" []) [],
      .node (.ofText (.other ")") false 11 ")" []) []],
    .node (.ofText (.other "=>") false 13 "=>" []) [],
    .node (.ofText (.other "parenthesized_expression") true 16 "(\x7b\x7d)" [.body]) [
      .node (.ofText (.other "(") false 16 "(" []) [],
      .node (.ofText .object true 17 "\x7b\x7d" []) [
        .node (.ofText (.other "\x7b") false 17 "\x7b" []) [],
        .node (.ofText (.other "\x7d") false 18 "\x7d" []) []],
      .node (.ofText (.other ")") false 19 ")" []) []]])

namespace Rule

/-- In the style `implicit` the object gets parentheses, without which its braces would be read as
    those of a block, and nothing is reported of it any more. -/
theorem body_obeys_style_emptyObject :
    Node.emptyObject.whole.IsParseOf "function f() \x7b return \x7b\x7d; \x7d" ∧
    ∃ v, check ⟨{ returnStyle := .implicit }, .default⟩ "f.ts" Node.emptyObject
        = .ok (.violation v) ∧
      v.fix = ⟨⟨0, 27⟩, "const f = () => (\x7b\x7d);"⟩ ∧
      ∃ c body a lead tail, Node.emptyObject.candidate? = .ok (some c) ∧
        Node.emptyObject.field .body = some body ∧ Node.emptyObject.Becomes .implicit a ∧
        v.fix.text = lead ++ a.render ++ tail ∧ c.ObeysStyle .implicit body a.body ∧
        (∃ b, Node.emptyObjectArrow.field .body = some b ∧ b.IsReadAgain body a.body) ∧
        ∀ w, check ⟨{ returnStyle := .implicit }, .default⟩ "f.ts" Node.emptyObjectArrow
          ≠ .ok (.violation w) := by
  obtain ⟨c, body, a, lead, tail, hc, hbody, hbecomes, htext, hobeys, hnone⟩ :=
    @body_obeys_style ⟨{ returnStyle := .implicit }, .default⟩ "f.ts" Node.emptyObject _ rfl
  have ha : a = { body := "(\x7b\x7d)" } := hbecomes.unique ⟨_, _, rfl, rfl, rfl⟩
  have hblock : body.text = .ok "\x7b return \x7b\x7d; \x7d" := Option.some.inj hbody ▸ rfl
  -- the text is not that of the block, so nothing is to be shown of how the block is read
  have hread : ∃ b, Node.emptyObjectArrow.field .body = some b ∧ b.IsReadAgain body a.body := by
    refine ⟨_, rfl, by rw [ha]; rfl, by rw [ha]; decide, fun h => ?_⟩
    rw [ha, hblock] at h
    exact absurd (Except.ok.inj h) (by decide)
  obtain ⟨b, hb, hb'⟩ := hread
  exact ⟨Node.isParseOf_emptyObject, _, rfl, rfl, c, body, a, lead, tail, hc, hbody, hbecomes,
    htext, hobeys, ⟨b, hb, hb'⟩, hnone "f.ts" Node.emptyObjectArrow b rfl hb hb'⟩

end Rule

end ArrowLint
