/-
  ArrowLint.Proofs.Fix.Layer

  One function of those that return one another. A layer is a function expression whose block
  returns another function, be it at once or within other statements; a core is one that does
  not. Both become arrow functions whose bodies are in the wanted style, and which hold what the
  function expression has held, so the other functions stay what they are
  (`Layer.IsConvertible.text_arrow`, `Phrase.asBody_of_block`).
-/

import ArrowLint.Proofs.Fix.Function

namespace ArrowLint

/-- A function expression that returns another one: its `block`, the statements of the block that
    the return is `within`, the return, and what is `around` the returned function in it. -/
structure Layer where
  signature : Signature
  block : Frame
  within : List Frame := []
  giving : Frame
  around : List Frame := []

/-- A function expression that does not return another one, with its `block`. -/
structure Core where
  signature : Signature
  block : Phrase

namespace Phrase

/-- The frame of parentheses around an expression. -/
def parentheses : Frame :=
  { kind := .other "parenthesized_expression", before := [token "" "("], after := [token "" ")"] }

/-- The phrase of an `expression` as the body of an arrow function, in parentheses if it needs
    them. -/
def asImplicitBody (expression : Phrase) : Phrase :=
  if expression.needsParentheses then parentheses.fill expression else expression

/-- The phrase of `block` as the body of an arrow function. -/
def asBody (block : Phrase) (style : ReturnStyle) : Phrase :=
  match block.lifted? style with
  | some expression => expression.asImplicitBody
  | none => block

theorem text_asBody (block : Phrase) (style : ReturnStyle) :
    (block.asBody style).text = block.bodyText style := by
  unfold asBody bodyText
  cases block.lifted? style with
  | none => rfl
  | some expression =>
    dsimp only
    unfold asImplicitBody implicitText
    split
    · rw [Frame.text_fill]
      rfl
    · rfl

theorem mem_parts_of_mem_statements {p q : Phrase} (h : q ∈ p.statements) : q ∈ p.parts :=
  (List.mem_filter.1 h).1

/-- The `returned?` expression of a block without functions has none. -/
theorem isInert_of_returned? {block expression : Phrase} (h : block.IsInert)
    (he : block.returned? = some expression) : expression.IsInert := by
  unfold returned? at he
  split at he
  · next statement hs =>
    split at he
    · have hstatement : statement ∈ block.parts :=
        mem_parts_of_mem_statements (by rw [hs]; exact List.mem_cons_self)
      have hexpression := mem_parts_of_mem_statements (List.mem_of_head? he)
      exact (isInert_iff.1 ((isInert_iff.1 h).2 _ hstatement)).2 _ hexpression
    · cases he
  · cases he

theorem isInert_asImplicitBody {expression : Phrase} (h : expression.IsInert) :
    expression.asImplicitBody.IsInert := by
  unfold asImplicitBody
  split
  · refine isInert_iff.2 ⟨rfl, fun q hq => ?_⟩
    simp only [Frame.parts_fill, parentheses, List.cons_append, List.nil_append, List.mem_cons,
      List.not_mem_nil, or_false] at hq
    rcases hq with rfl | rfl | rfl
    · decide
    · exact isInert_seated.2 h
    · decide
  · exact h

theorem kind_asImplicitBody {expression : Phrase} (h : expression.kind ≠ .statementBlock) :
    expression.asImplicitBody.kind ≠ .statementBlock := by
  unfold asImplicitBody
  split
  · exact nofun
  · exact h

/-- The body `asBody` for a block without functions has none, and is in the wanted style. -/
theorem asBody_of_block {block : Phrase} (style : ReturnStyle)
    (h : block.kind = .statementBlock ∧ block.IsInert)
    (hexpression : ∀ e ∈ block.returned?, e.kind ≠ .statementBlock) :
    (block.asBody style).IsInert ∧
      (style = .explicit → (block.asBody style).kind = .statementBlock) ∧
      (style = .implicit → (block.asBody style).kind = .statementBlock →
        (block.asBody style).returned? = none) := by
  unfold asBody lifted?
  cases hr : block.returned? with
  | none =>
    rw [ite_self]
    exact ⟨h.2, fun _ => h.1, fun _ _ => hr⟩
  | some e =>
    -- the expression is no block, so it counts as a body of its own
    have hinert := isInert_asImplicitBody (isInert_of_returned? h.2 hr)
    have hkind := kind_asImplicitBody (hexpression e hr)
    cases style with
    | explicit => exact ⟨h.2, fun _ => h.1, fun hs => nomatch hs⟩
    | implicit => exact ⟨hinert, fun hs => (nomatch hs), fun _ hk => absurd hk hkind⟩
    | unchanged => exact ⟨hinert, fun hs => (nomatch hs), fun hs => (nomatch hs)⟩

end Phrase

/-- A kind that `isFunction` is none that is not. -/
theorem Kind.ne_of_isFunction {k k' : Kind} (hk : k.isFunction = true)
    (hk' : k'.isFunction = false) : k ≠ k' := by
  rintro rfl
  rw [hk] at hk'
  cases hk'

namespace Layer

/-- The frames between the head of the function and the function that it returns. -/
def inner (l : Layer) : List Frame :=
  l.block :: l.within ++ l.giving :: l.around

/-- Whether the function of a layer does nothing but return the other one. -/
def isSingle (l : Layer) : Bool :=
  l.within.isEmpty && (l.block.before ++ l.block.after).all (!·.isStatement)

/-- The frames between the head of the arrow function and the function that it returns. -/
def innerOfArrow (l : Layer) (style : ReturnStyle) : List Frame :=
  if style != .explicit && l.isSingle then l.around else l.inner

/-- The function expression of a layer around the phrase `p`. -/
def function (l : Layer) (p : Phrase) : Phrase :=
  l.signature.functionFrame.fill (Frame.fillAll l.inner p)

/-- The arrow function of a layer around the phrase `p`. -/
def arrow (l : Layer) (style : ReturnStyle) (p : Phrase) : Phrase :=
  l.signature.arrowFrame.fill (Frame.fillAll (l.innerOfArrow style) p)

/-- Whether a layer is a function expression that may become an arrow function: its signature
    `IsSound`, it returns an expression, there is no other function in it than the one that it
    returns, and it does nothing else if `singleReturnOnly` is set. -/
structure IsConvertible (l : Layer) (o : Options) : Prop where
  signature : l.signature.IsSound
  block : l.block.kind = .statementBlock ∧ l.block.IsInert
  giving : l.giving.kind = .returnStatement ∧ l.giving.isNamed = true ∧ l.giving.IsInert
  keyword : ∀ p ∈ l.giving.before, p.isStatement = false
  within : ∀ f ∈ l.within, f.IsPassive o
  statement : ∀ f ∈ l.within,
    f.isNamed = true ∧ f.kind.isComment = false ∧ f.kind ≠ .returnStatement
  around : ∀ f ∈ l.around, f.IsPassive o
  expression : ∀ f ∈ l.around,
    f.isNamed = true ∧ f.kind.isComment = false ∧ f.kind ≠ .statementBlock
  plain : Frame.HoldPlainly l.around
  single : o.singleReturnOnly = true → l.isSingle = true

variable {l : Layer} {o : Options} {p : Phrase}

theorem IsConvertible.passive (h : l.IsConvertible o) : ∀ f ∈ l.inner, f.IsPassive o := by
  intro f hf
  rw [inner, List.cons_append, List.mem_cons, List.mem_append, List.mem_cons] at hf
  rcases hf with rfl | hf | rfl | hf
  · refine ⟨by rw [h.block.1]; rfl, h.block.2, .inr ?_⟩
    rw [Frame.assignsToPrototype, h.block.1]
    rfl
  · exact h.within f hf
  · refine ⟨by rw [h.giving.1]; rfl, h.giving.2.2, .inr ?_⟩
    rw [Frame.assignsToPrototype, h.giving.1]
    rfl
  · exact h.around f hf

theorem IsConvertible.holdPlainly (h : l.IsConvertible o) : Frame.HoldPlainly l.inner := by
  unfold inner Frame.HoldPlainly
  rw [List.getLast?_append_cons]
  -- the innermost frame is the return itself, if there is nothing around what it returns
  cases ha : l.around with
  | nil =>
    rintro f hf
    obtain rfl : l.giving = f := Option.some.inj hf
    rw [Frame.isDefaultExport, Frame.isMember, h.giving.1]
    exact ⟨rfl, rfl⟩
  | cons f fs =>
    rw [List.getLast?_cons_cons, ← ha]
    exact h.plain

theorem IsConvertible.passive_innerOfArrow (h : l.IsConvertible o) (style : ReturnStyle) :
    ∀ f ∈ l.innerOfArrow style, f.IsPassive o := by
  unfold innerOfArrow
  split
  · exact h.around
  · exact h.passive

theorem IsConvertible.holdPlainly_innerOfArrow (h : l.IsConvertible o) (style : ReturnStyle) :
    Frame.HoldPlainly (l.innerOfArrow style) := by
  unfold innerOfArrow
  split
  · exact h.plain
  · exact h.holdPlainly

/-- What a layer returns is an expression, be it the function or what is `around` it. -/
theorem IsConvertible.returned (h : l.IsConvertible o) (hp : p.isStatement = true)
    (hk : p.kind.isFunction = true) : (Frame.fillAll l.around p).isStatement = true ∧
      (Frame.fillAll l.around p).kind ≠ .statementBlock := by
  cases ha : l.around with
  | nil => exact ⟨hp, Kind.ne_of_isFunction hk rfl⟩
  | cons f fs =>
    obtain ⟨hn, hc, hf⟩ := h.expression f (by rw [ha]; exact List.mem_cons_self)
    refine ⟨?_, hf⟩
    rw [Phrase.isStatement, Frame.fillAll_cons, Frame.isNamed_fill, Frame.kind_fill, hn, hc]
    rfl

/-- The block of a layer has for a statement the return of the next function, or what that is
    `within`. -/
theorem IsConvertible.statement_inner (h : l.IsConvertible o) (p : Phrase) :
    (Frame.fillAll (l.within ++ l.giving :: l.around) p).isStatement = true ∧
      ((Frame.fillAll (l.within ++ l.giving :: l.around) p).kind = .returnStatement ↔
        l.within.isEmpty = true) := by
  cases hw : l.within with
  | nil =>
    rw [List.nil_append, Frame.fillAll_cons, Phrase.isStatement, Frame.isNamed_fill,
      Frame.kind_fill, h.giving.1, h.giving.2.1]
    exact ⟨rfl, iff_of_true rfl rfl⟩
  | cons f fs =>
    obtain ⟨hn, hc, hf⟩ := h.statement f (by rw [hw]; exact List.mem_cons_self)
    rw [List.cons_append, Frame.fillAll_cons, Phrase.isStatement, Frame.isNamed_fill,
      Frame.kind_fill, hn, hc]
    exact ⟨rfl, iff_of_false hf Bool.false_ne_true⟩

/-- The block of a layer gives the function that the layer returns, if the layer `isSingle`. -/
theorem IsConvertible.returned?_inner (h : l.IsConvertible o) (hp : p.isStatement = true)
    (hk : p.kind.isFunction = true) : (Frame.fillAll l.inner p).returned? =
      if l.isSingle then some ((Frame.fillAll l.around p).seated l.giving.hole) else none := by
  obtain ⟨hstatement, hkind⟩ := h.statement_inner p
  have hkeyword : l.giving.before.filter Phrase.isStatement = [] :=
    List.filter_eq_nil_iff.2 fun q hq => by simp [h.keyword q hq]
  have hsingle : l.isSingle = true ↔ l.within.isEmpty = true ∧
      l.block.before.filter Phrase.isStatement = [] ∧
      l.block.after.filter Phrase.isStatement = [] := by
    simp [isSingle]
  unfold Phrase.returned?
  rw [inner, List.cons_append, Frame.fillAll_cons, Frame.statements_fill _ hstatement]
  split
  · next only honly =>
    -- one statement is left, which is the return or what that is within
    have hnil : l.block.before.filter Phrase.isStatement = [] ∧
        l.block.after.filter Phrase.isStatement = [] := by
      rcases List.append_eq_singleton_iff.1 honly with ⟨hbefore, hrest⟩ | ⟨-, hrest⟩
      · exact ⟨hbefore, (List.cons.inj hrest).2⟩
      · cases hrest
    rw [hnil.1, hnil.2] at honly
    obtain ⟨rfl, -⟩ := List.cons.inj honly
    rw [Phrase.kind_seated]
    by_cases hw : l.within.isEmpty = true
    · rw [if_pos (beq_iff_eq.2 (hkind.2 hw)), if_pos (hsingle.2 ⟨hw, hnil⟩),
        List.isEmpty_iff.1 hw]
      show (l.giving.fill (Frame.fillAll l.around p)).statements.head? = _
      rw [Frame.statements_fill _ (h.returned hp hk).1, hkeyword]
      rfl
    · rw [if_neg fun hr => hw (hkind.1 (beq_iff_eq.1 hr)), if_neg fun hs => hw (hsingle.1 hs).1]
  · next hmany =>
    rw [if_neg]
    intro hs
    obtain ⟨-, hbefore, hafter⟩ := hsingle.1 hs
    exact hmany _ (by rw [hbefore, hafter]; rfl)

/-- The text of the arrow function for a layer is its `arrowHead` and the `bodyText` of its
    block. -/
theorem IsConvertible.text_arrow (h : l.IsConvertible o) (hp : p.isStatement = true)
    (hk : p.kind.isFunction = true)
    (hneeds : (Frame.fillAll l.around p).needsParentheses = false) (style : ReturnStyle) :
    (l.arrow style p).text
      = l.signature.arrowHead ++ " " ++ (Frame.fillAll l.inner p).bodyText style := by
  have hbody : (Frame.fillAll l.inner p).bodyText style
      = (Frame.fillAll (l.innerOfArrow style) p).text := by
    -- what is returned is written as it is, in no parentheses
    have hlifted : ((Frame.fillAll l.around p).seated l.giving.hole).implicitText
        = (Frame.fillAll l.around p).text := by
      unfold Phrase.implicitText Phrase.needsParentheses
      rw [Phrase.kind_seated, Phrase.text_seated]
      exact if_neg (by rw [← Phrase.needsParentheses, hneeds]; exact Bool.false_ne_true)
    unfold Phrase.bodyText Phrase.lifted? innerOfArrow
    rw [h.returned?_inner hp hk]
    cases l.isSingle with
    | false => cases style <;> rfl
    | true =>
      cases style with
      | explicit => rfl
      | implicit => exact hlifted
      | unchanged => exact hlifted
  rw [hbody, arrow, h.signature.text_arrowFrame]

/-- The body that a layer has as an arrow function is in the wanted style. -/
theorem IsConvertible.body_innerOfArrow (h : l.IsConvertible o) (hp : p.isStatement = true)
    (hk : p.kind.isFunction = true) (style : ReturnStyle) :
    (style = .explicit → (Frame.fillAll (l.innerOfArrow style) p).kind = .statementBlock) ∧
      (style = .implicit → (Frame.fillAll (l.innerOfArrow style) p).kind = .statementBlock →
        (Frame.fillAll (l.innerOfArrow style) p).returned? = none) := by
  constructor
  · rintro rfl
    exact h.block.1
  · rintro rfl
    unfold innerOfArrow
    split
    · exact fun hblock => absurd hblock (h.returned hp hk).2
    · next hsingle =>
      intro _
      rw [h.returned?_inner hp hk, if_neg]
      simpa using hsingle

end Layer

namespace Core

/-- The function expression of a core. -/
def function (c : Core) : Phrase :=
  c.signature.functionFrame.fill c.block

/-- The arrow function that a core becomes. -/
def arrow (c : Core) (style : ReturnStyle) : Phrase :=
  c.signature.arrowFrame.fill (c.block.asBody style)

/-- Whether a core is a function expression that may become an arrow function: its signature
    `IsSound`, there is no function in it, and it only returns if `singleReturnOnly` is set. -/
structure IsConvertible (c : Core) (o : Options) : Prop where
  signature : c.signature.IsSound
  block : c.block.kind = .statementBlock ∧ c.block.IsInert
  expression : ∀ e ∈ c.block.returned?, e.kind ≠ .statementBlock
  single : o.singleReturnOnly = true → c.block.returned?.isSome = true

end Core

end ArrowLint
