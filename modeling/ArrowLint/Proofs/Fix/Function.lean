/-
  ArrowLint.Proofs.Fix.Function

  The fix for a function expression, read off its text. A signature is what stands around the body
  of a function expression, together with what a grammar makes of the head of the arrow function
  that replaces it.

    * `Node.IsAt.exists_report?`: a function expression that is free to become an arrow function,
      and mentions nothing that is bound to it, is reported, and the text of the fix is the head
      of the arrow function with the body in the wanted style (`Phrase.bodyText`);
    * `Node.IsAt.report?_arrow`: an arrow function whose body is in the wanted style is not.
-/

import ArrowLint.Proofs.Candidate.Reported
import ArrowLint.Proofs.Fix.Operand
import ArrowLint.Proofs.Lint.Frames
import ArrowLint.Proofs.Lint.Style

namespace ArrowLint

namespace Phrase

/-! ## Bodies -/

/-- The expression that `block` gives, if it holds one return and nothing else. -/
def returned? (block : Phrase) : Option Phrase :=
  match block.statements with
  | [statement] =>
    if statement.kind == .returnStatement then statement.statements.head? else none
  | _ => none

/-- The expression that becomes the body of an arrow function in place of `block`, none in the style
    `explicit`. -/
def lifted? (block : Phrase) (style : ReturnStyle) : Option Phrase :=
  if style == .explicit then none else block.returned?

/-- Whether an expression needs parentheses as the body of an arrow function, as
    `Node.needsParentheses` says. -/
def needsParentheses (expression : Phrase) : Bool :=
  Node.needsParentheses expression.kind expression.text

/-- The text of an `expression` as the body of an arrow function. -/
def implicitText (expression : Phrase) : String :=
  if expression.needsParentheses then "(" ++ expression.text ++ ")" else expression.text

/-- The text of `block` as the body of an arrow function: that of the `lifted?` expression, else its
    own. -/
def bodyText (block : Phrase) (style : ReturnStyle) : String :=
  match block.lifted? style with
  | some expression => expression.implicitText
  | none => block.text

theorem bodyText_seated (p : Phrase) (s : Seat) (style : ReturnStyle) :
    (p.seated s).bodyText style = p.bodyText style := by
  rw [bodyText, bodyText, text_seated]
  rfl

/-! ## What is bound to a function -/

/-- Whether `p` would mean something else in an arrow function, as `Node.obstacle?` finds out for a
    node. -/
def isBound (p : Phrase) : Bool :=
  p.kind.isThis || p.kind == .superKeyword ||
    p.kind.isIdentifier && p.text == "arguments" ||
    (p.kind == .metaProperty || p.kind == .memberExpression) &&
      Text.spellsOut p.text "new.target"

/-- Whether no phrase of `p.walk` is bound. -/
def IsUnbound (p : Phrase) : Prop :=
  ∀ q ∈ p.walk, q.isBound = false

instance (p : Phrase) : Decidable p.IsUnbound :=
  inferInstanceAs (Decidable (∀ q ∈ p.walk, q.isBound = false))

@[simp] theorem isBound_seated (p : Phrase) (s : Seat) : (p.seated s).isBound = p.isBound := by
  simp [isBound]

theorem isUnbound_seated {p : Phrase} {s : Seat} : (p.seated s).IsUnbound ↔ p.IsUnbound :=
  forall_mem_walk_seated (by rw [isBound_seated])

theorem isUnbound_fill {f : Frame} {p : Phrase} (hf : (f.fill p).isBound = false)
    (hbeside : ∀ q ∈ f.before ++ f.after, q.IsUnbound) (hp : p.IsUnbound) :
    (f.fill p).IsUnbound := by
  refine forall_mem_walk_iff.2 ⟨hf, fun q hq => ?_⟩
  rcases List.mem_append.1 hq with hq | hq
  · exact hbeside q (List.mem_append_left _ hq)
  · rcases List.mem_cons.1 hq with rfl | hq
    · exact isUnbound_seated.2 hp
    · exact hbeside q (List.mem_append_right _ hq)

theorem isUnbound_of_fill {f : Frame} {p : Phrase} (h : (f.fill p).IsUnbound) : p.IsUnbound :=
  isUnbound_seated.1 ((forall_mem_walk_iff.1 h).2 (p.seated f.hole) (by simp))

theorem isUnbound_of_fillAll (fs : List Frame) {p : Phrase}
    (h : (Frame.fillAll fs p).IsUnbound) : p.IsUnbound := by
  induction fs with
  | nil => exact h
  | cons f fs ih => exact ih (isUnbound_of_fill h)

end Phrase

/-! ## Signatures -/

/-- What stands around the body of a function expression: the tokens ahead of the `parameters`,
    these, and what comes between them and the body. The `heading` is what the grammar makes of the
    text that takes their place in the arrow function. -/
structure Signature where
  opening : List Phrase
  parameters : Phrase
  closing : List Phrase := []
  bodyLead : String := " "
  heading : List Phrase

namespace Signature

open Phrase

/-- The parts of the function expression ahead of its body. -/
def parts (s : Signature) : List Phrase :=
  s.opening ++ s.parameters :: s.closing

/-- Whether `async` is among the `opening` tokens. -/
def isAsync (s : Signature) : Bool :=
  s.opening.any (·.kind == .asyncKeyword)

/-- The text of the type parameters, empty if there are none. -/
def typeParameters (s : Signature) : String :=
  ((s.parts.find? (·.fills .typeParameters)).map text).getD ""

/-- The texts of the parameters. -/
def parameterTexts (s : Signature) : List String :=
  s.parameters.statements.map text

/-- The text of the arrow function ahead of its `body`. -/
def arrowHead (s : Signature) : String :=
  (if s.isAsync then "async " else "") ++ s.typeParameters
    ++ "(" ++ ", ".intercalate s.parameterTexts ++ ") =>"

/-- The `Arrow` of a signature with the text `body`. -/
def arrow (s : Signature) (body : String) : Arrow :=
  { isAsync := s.isAsync, typeParameters := s.typeParameters, parameters := s.parameterTexts
    body := body }

theorem render_arrow (s : Signature) (body : String) :
    (s.arrow body).render = s.arrowHead ++ " " ++ body := by
  have hopen : " => " = " =>" ++ " " := rfl
  have hclose : ") =>" = ")" ++ " =>" := rfl
  rw [Arrow.render, arrowHead, hopen, hclose]
  simp only [arrow, String.append_assoc, String.empty_append, String.append_empty]
  rfl

/-- The function expression as a frame around its body. -/
def functionFrame (s : Signature) : Frame :=
  { kind := .functionExpression, before := s.parts, hole := ⟨s.bodyLead, [.body]⟩ }

/-- The arrow function as a frame around its body. -/
def arrowFrame (s : Signature) : Frame :=
  { kind := .arrowFunction, before := s.heading, hole := ⟨" ", [.body]⟩ }

/-- Whether a signature is that of a function which is no generator and has no functions in its own
    signature, held under the fields that the grammar has for it, with a `heading` that is drawn
    from the text of the arrow function. -/
structure IsSound (s : Signature) : Prop where
  opens : s.opening.isEmpty = false
  tokens : ∀ t ∈ s.opening, t.text ≠ "" ∧ t.kind ≠ .star ∧ t.fills .parameters = false
  parameters : s.parameters.fills .parameters = true
  noBody : ∀ t ∈ s.parts, t.fills .body = false ∧ t.fills .parameter = false
  inert : ∀ t ∈ s.parts, t.IsInert
  heading : ∀ t ∈ s.heading, t.fills .body = false ∧ t.IsInert
  heading_text : joined s.heading = s.arrowHead

instance (s : Signature) : Decidable s.IsSound :=
  decidable_of_iff (s.opening.isEmpty = false ∧
      (∀ t ∈ s.opening, t.text ≠ "" ∧ t.kind ≠ .star ∧ t.fills .parameters = false) ∧
      s.parameters.fills .parameters = true ∧
      (∀ t ∈ s.parts, t.fills .body = false ∧ t.fills .parameter = false) ∧
      (∀ t ∈ s.parts, t.IsInert) ∧ (∀ t ∈ s.heading, t.fills .body = false ∧ t.IsInert) ∧
      joined s.heading = s.arrowHead)
    ⟨fun ⟨ho, ht, hp, hb, hi, hh, hx⟩ => ⟨ho, ht, hp, hb, hi, hh, hx⟩,
      fun h => ⟨h.opens, h.tokens, h.parameters, h.noBody, h.inert, h.heading, h.heading_text⟩⟩

variable {s : Signature} {seat : Seat} {b : Phrase}

theorem IsSound.isInert_functionFrame (hs : s.IsSound) : s.functionFrame.IsInert := by
  intro t ht
  exact hs.inert t (by simpa [functionFrame] using ht)

theorem IsSound.isInert_arrowFrame (hs : s.IsSound) : s.arrowFrame.IsInert := by
  intro t ht
  exact (hs.heading t (by simpa [arrowFrame] using ht)).2

/-- A function with the signature `s` is not empty: it starts with a token. -/
theorem IsSound.length_function_pos (hs : s.IsSound) (b : Phrase) :
    0 < (Bytes.ofText (s.functionFrame.fill b).text).length := by
  cases ho : s.opening with
  | nil =>
    have hopens := hs.opens
    rw [ho] at hopens
    cases hopens
  | cons t ts =>
    have htext := (hs.tokens t (by rw [ho]; exact List.mem_cons_self)).1
    have hpos : 0 < (Bytes.ofText t.text).length :=
      List.length_pos_iff.2 fun hnil => htext (Bytes.eq_empty_of_ofText_eq_nil hnil)
    rw [Frame.text_fill, Frame.front, functionFrame, parts, ho, List.cons_append, joined_cons, full]
    simp only [Bytes.ofText_append, List.length_append]
    omega

theorem IsSound.text_arrowFrame (hs : s.IsSound) (b : Phrase) :
    (s.arrowFrame.fill b).text = s.arrowHead ++ " " ++ b.text := by
  have hback : s.arrowFrame.back = "" := rfl
  rw [Frame.text_fill, hback, String.append_empty, Frame.front, ← hs.heading_text]
  rfl

theorem field_body_functionFrame (hs : s.IsSound) :
    ((s.functionFrame.fill b).seated seat).field .body = some (b.seated s.functionFrame.hole) := by
  have hnone : s.parts.find? (·.fills .body) = none := by
    rw [List.find?_eq_none]
    exact fun t ht => by simp [(hs.noBody t ht).1]
  show (s.parts ++ [_]).find? _ = _
  rw [List.find?_append, hnone]
  rfl

theorem field_body_arrowFrame (hs : s.IsSound) :
    ((s.arrowFrame.fill b).seated seat).field .body = some (b.seated s.arrowFrame.hole) := by
  have hnone : s.heading.find? (·.fills .body) = none := by
    rw [List.find?_eq_none]
    exact fun t ht => by simp [(hs.heading t ht).1]
  show (s.heading ++ [_]).find? _ = _
  rw [List.find?_append, hnone]
  rfl

theorem field_parameter_functionFrame (hs : s.IsSound) :
    ((s.functionFrame.fill b).seated seat).field .parameter = none := by
  show (s.parts ++ [b.seated _]).find? _ = none
  rw [List.find?_eq_none]
  intro t ht
  rcases List.mem_append.1 ht with ht | ht
  · simp [(hs.noBody t ht).2]
  · rw [List.mem_singleton.1 ht]
    exact Bool.false_ne_true

theorem typeParameters_functionFrame :
    ((s.functionFrame.fill b).seated seat).fieldText .typeParameters = s.typeParameters := by
  have hnone : [b.seated s.functionFrame.hole].find? (·.fills .typeParameters) = none := rfl
  show (((s.parts ++ [b.seated _]).find? _).map _).getD _ = _
  rw [List.find?_append, hnone, Option.or_none]
  rfl

end Signature

namespace Node

open Phrase

variable {n : Node} {p b : Phrase} {s : Signature} {source : Bytes} {start : Nat}

/-! ## Bodies -/

theorem Shows.head?_statements (h : n.Shows p) :
    Option.Rel Shows n.statements.head? p.statements.head? := by
  have hrel := h.statements
  generalize n.statements = ms at hrel
  generalize p.statements = qs at hrel
  cases hrel with
  | nil => exact .none
  | cons hm _ => exact .some hm

/-- If `n` `Shows` the phrase `p`, the argument of its single return shows `p.returned?`. -/
theorem Shows.returned? (h : n.Shows p) :
    Option.Rel Shows (n.singleReturn.bind returnArgument) p.returned? := by
  have hrel := h.statements
  unfold Node.singleReturn Phrase.returned?
  generalize n.statements = ms at hrel
  generalize p.statements = qs at hrel
  cases hrel with
  | nil => exact .none
  | @cons m q ms qs hm hrest =>
    cases hrest with
    | cons _ _ => exact .none
    | nil =>
      dsimp only
      rw [hm.kind_eq]
      split
      · exact hm.head?_statements
      · exact .none

theorem Shows.asImplicitBody (h : n.Shows p) : n.asImplicitBody = .ok p.implicitText := by
  rw [Node.asImplicitBody, h.text_eq, h.kind_eq]
  rfl

/-- The `bodyShape` of a function with a block can be told from the phrase of the block. -/
theorem Shows.bodyShape_eq {block : Node} (h : block.Shows b) (hb : n.field .body = some block)
    (hk : b.kind = .statementBlock) : n.bodyShape =
      if b.returned?.isSome then .blockSingleReturn else .blockMultiStatement := by
  have hrel := h.returned?
  have hkind : (block.kind != .statementBlock) = false := by rw [h.kind_eq, hk]; rfl
  unfold Node.bodyShape
  simp only [hb, hkind, Bool.false_eq_true, if_false]
  generalize block.singleReturn.bind returnArgument = found at hrel
  generalize b.returned? = returned at hrel
  cases hrel with
  | none => rfl
  | some _ => rfl

/-- The `bodyText` of a function with a block is that of the phrase of the block. -/
theorem Shows.bodyText_eq {block : Node} (h : block.Shows b) (hb : n.field .body = some block)
    (hk : b.kind = .statementBlock) (style : ReturnStyle) :
    bodyText n.bodyShape block style = .ok (b.bodyText style) := by
  have hrel := h.returned?
  rw [h.bodyShape_eq hb hk]
  unfold ArrowLint.bodyText Phrase.bodyText Phrase.lifted?
  cases hq : b.returned? with
  | none =>
    simp only [h.text_eq, ite_self]
    rfl
  | some q =>
    rw [hq] at hrel
    obtain ⟨expression, hr, hs⟩ := exists_of_rel_some hrel
    have hreturned := returnedExpression_of_singleReturn hr
    -- the expression takes the place of the block unless blocks are wanted
    cases style with
    | explicit =>
      simp only [h.text_eq]
      rfl
    | implicit =>
      simp only [hreturned]
      exact hs.asImplicitBody
    | unchanged =>
      simp only [hreturned]
      exact hs.asImplicitBody

/-! ## Headers -/

theorem start_lt_of_mem_trees {ps : List Phrase} (hps : ∀ p ∈ ps, p.text ≠ "") {t : Tree}
    (ht : t ∈ trees source start ps) :
    t.label.start < start + (Bytes.ofText (joined ps)).length := by
  induction ps generalizing start with
  | nil => cases ht
  | cons p ps ih =>
    have hlen : (Bytes.ofText (joined (p :: ps))).length = (Bytes.ofText p.seat.lead).length
        + (Bytes.ofText p.text).length + (Bytes.ofText (joined ps)).length := by
      rw [joined_cons, full]
      simp only [Bytes.ofText_append, List.length_append]
    -- no text is empty, so the last one starts ahead of the end, too
    have hp : 0 < (Bytes.ofText p.text).length :=
      List.length_pos_iff.2 fun h => hps p List.mem_cons_self (Bytes.eq_empty_of_ofText_eq_nil h)
    rcases List.mem_cons.1 ht with rfl | ht
    · rw [label_tree]
      show start + _ < _
      omega
    · have h := ih (fun q hq => hps q (List.mem_cons_of_mem p hq)) ht
      rw [full, Bytes.ofText_append, List.length_append] at h
      omega

/-- The `headerTokens` of a function at `functionFrame` show the `opening` tokens. -/
theorem IsAt.exists_header (h : n.IsAt (s.functionFrame.fill b) source start) (hs : s.IsSound) :
    ∃ list, n.field .parameters = some list ∧ list.Shows s.parameters ∧
      List.Forall₂ Shows n.headerTokens s.opening := by
  obtain ⟨seat, h⟩ := h
  have hshows : n.Shows ((s.functionFrame.fill b).seated seat) := ⟨source, start, h⟩
  have htrees := n.children_map_tree
  have hparts : ((s.functionFrame.fill b).seated seat).parts
      = s.opening ++ s.parameters :: (s.closing ++ [b.seated s.functionFrame.hole]) :=
    List.append_assoc ..
  rw [h, children_tree, hparts, trees_append, List.map_eq_append_iff] at htrees
  obtain ⟨opening, others, hchildren, hopening, hothers⟩ := htrees
  obtain ⟨list, rest, rfl, hlist, -⟩ := List.map_eq_cons_iff.1 hothers
  have hopens := forall₂_shows_of_map_tree hopening
  have hlshows : list.Shows s.parameters := ⟨_, _, hlist⟩
  have hfield : n.field .parameters = some list := by
    have hnone : opening.find? (·.tree.fills .parameters) = none := by
      rw [List.find?_eq_none]
      intro t ht
      obtain ⟨q, hq, hshow⟩ := exists_shows_of_mem hopens ht
      rw [hshow.fills_eq, (hs.tokens q hq).2.2]
      exact Bool.false_ne_true
    rw [Node.field, hchildren, List.find?_append, hnone,
      List.find?_cons_of_pos (by rw [hlshows.fills_eq, hs.parameters])]
    rfl
  refine ⟨list, hfield, hlshows, ?_⟩
  have hbare : n.field .parameter = none :=
    hshows.field_eq_none (Signature.field_parameter_functionFrame hs)
  -- the tokens start ahead of the parameters, and the parameters do not
  have hahead : ∀ t ∈ opening, decide (t.start < list.start) = true := by
    intro t ht
    have hmem := List.mem_map_of_mem (f := Node.tree) ht
    rw [hopening] at hmem
    have hlt := start_lt_of_mem_trees (fun q hq => (hs.tokens q hq).1) hmem
    have hle : start + (Bytes.ofText (joined s.opening)).length ≤ list.start := by
      rw [Node.start, label_of_tree hlist]
      exact Nat.le_add_right _ _
    exact decide_eq_true (Nat.lt_of_lt_of_le hlt hle)
  rw [headerTokens, hfield, hbare, Option.orElse_eq_orElse, Option.orElse_eq_or, Option.or_none,
    tokensBefore, hchildren, List.takeWhile_append_of_pos hahead, List.takeWhile_cons_of_neg,
    List.append_nil]
  · exact hopens
  · simp

/-! ## Reports -/

theorem Shows.obstacle?_eq_none (h : n.Shows p) (hp : p.isBound = false) :
    n.obstacle? = .ok none := by
  unfold Phrase.isBound at hp
  simp only [Bool.or_eq_false_iff] at hp
  obtain ⟨⟨⟨hthis, hsuper⟩, harguments⟩, htarget⟩ := hp
  unfold obstacle?
  rw [h.kind_eq, hthis, hsuper, h.text_eq]
  simp only [Bool.false_eq_true, if_false, Except.map]
  split
  · next hk =>
    rw [hk, Bool.true_and] at harguments
    rw [harguments]
    rfl
  · split
    · next hk =>
      rw [hk, Bool.true_and] at htarget
      rw [htarget]
      rfl
    · rfl

/-- A function expression that `StandsPlainly` has the candidate of a plain function. -/
theorem candidate?_of_functionExpression (hk : n.kind = .functionExpression)
    (hn : n.label.isNamed = true) (hb : (n.field .body).isNone = false)
    (hplain : n.StandsPlainly) :
    n.candidate? = (n.toCandidate .expression .plainFunction).map some := by
  unfold candidate?
  simp only [hn, hk, Bool.not_true, Bool.false_eq_true, if_false]
  unfold functionCandidate?
  simp only [hb, hk, Bool.false_eq_true, if_false, beq_self_eq_true, if_true]
  -- what is asked of the parent decides between the kinds of functions
  cases hparent : n.parent with
  | none => rfl
  | some parent =>
    obtain ⟨hexport, hmember⟩ := hplain parent hparent
    simp only [hexport, hmember, Bool.false_eq_true, if_false, Bool.and_false]

/-- The `Candidate` that a function expression with the signature `s` makes. -/
def plainCandidate (n : Node) (s : Signature) (name : String) (context : Context) : Candidate :=
  { node := n, role := .expression, shape := .plainFunction, bodyShape := n.bodyShape
    context := context, isAsync := s.isAsync, isGenerator := false, name := name }

theorem any_eq_of_forall₂ {ms : List Node} {ps : List Phrase} (h : List.Forall₂ Shows ms ps)
    (k : Kind) : ms.any (·.kind == k) = ps.any (·.kind == k) := by
  induction h with
  | nil => rfl
  | cons hm _ ih => rw [List.any_cons, List.any_cons, hm.kind_eq, ih]

theorem mapM_text_of_forall₂ {ms : List Node} {ps : List Phrase} (h : List.Forall₂ Shows ms ps) :
    ms.mapM Node.text = .ok (ps.map Phrase.text) := by
  rw [mapM_eq_ok_iff]
  induction h with
  | nil => rfl
  | cons hm _ ih => rw [List.map_cons, List.map_cons, List.map_cons, hm.text_eq, ih]

theorem IsAt.exists_candidate (h : n.IsAt (s.functionFrame.fill b) source start) (hs : s.IsSound)
    (hplain : n.StandsPlainly) (hl : n.whole.IsLegible) :
    ∃ name context, n.context = .ok context ∧
      n.candidate? = .ok (some (n.plainCandidate s name context)) := by
  obtain ⟨seat, hshows⟩ := h.exists_shows
  obtain ⟨body, hbody, -⟩ := hshows.exists_field (Signature.field_body_functionFrame hs)
  obtain ⟨context, hcontext⟩ := exists_context hl
  obtain ⟨list, hlist, -, hheader⟩ := h.exists_header hs
  -- both marks are looked for among the tokens ahead of the parameters
  have hasync : n.isAsync = s.isAsync := any_eq_of_forall₂ hheader _
  have hgenerator : n.isGenerator = false := by
    rw [isGenerator, any_eq_of_forall₂ hheader, h.kind_eq]
    show s.opening.any _ = false
    rw [List.any_eq_false]
    exact fun t ht => by simpa using (hs.tokens t ht).2.1
  refine ⟨((s.functionFrame.fill b).seated seat).fieldText .name, context, hcontext, ?_⟩
  rw [candidate?_of_functionExpression h.kind_eq (hshows.isNamed_eq.trans rfl) (by rw [hbody]; rfl)
    hplain, toCandidate, hshows.fieldText_eq]
  show ((n.context.map _).map some : Except NodeError _) = _
  rw [hcontext, hasync, hgenerator]
  rfl

/-- The `fix` of a `plainCandidate` is the text of its `arrowHead` and of its block. -/
theorem IsAt.exists_fix (h : n.IsAt (s.functionFrame.fill b) source start) (hs : s.IsSound)
    (hb : b.kind = .statementBlock) (name : String) (context : Context) (style : ReturnStyle) :
    ∃ d, (n.plainCandidate s name context).descriptor = .ok d ∧
      (n.plainCandidate s name context).fix d style
        = .ok ⟨n.span, s.arrowHead ++ " " ++ b.bodyText style⟩ := by
  obtain ⟨seat, hshows⟩ := h.exists_shows
  obtain ⟨body, hbody, hbshows⟩ := hshows.exists_field (Signature.field_body_functionFrame hs)
  obtain ⟨list, hlist, hlshows, -⟩ := h.exists_header hs
  have hnode : (n.plainCandidate s name context).node = n := rfl
  have hparameters : (n.plainCandidate s name context).parameterTexts = .ok s.parameterTexts := by
    have hnone := hshows.field_eq_none (Signature.field_parameter_functionFrame hs)
    simp only [Candidate.parameterTexts, hnode, hnone, hlist]
    exact mapM_text_of_forall₂ hlshows.statements
  have htypes : n.fieldText .typeParameters = .ok s.typeParameters := by
    rw [hshows.fieldText_eq, Signature.typeParameters_functionFrame]
  have htext : ArrowLint.bodyText n.bodyShape body style = .ok (b.bodyText style) := by
    rw [hbshows.bodyText_eq hbody hb, bodyText_seated]
  refine ⟨⟨name, s.isAsync, s.parameterTexts, body, "", s.typeParameters, []⟩, ?_, ?_⟩
  · simp only [Candidate.descriptor, hnode, hbody, hparameters, htypes]
    rfl
  · show ((ArrowLint.bodyText n.bodyShape body style).map _).map _ = _
    rw [htext]
    show Except.ok (Candidate.fixWith _ _ _) = _
    rw [Candidate.fixWith_of_expression rfl rfl rfl, ← s.render_arrow]
    rfl

/-- A function expression at `functionFrame` that `IsOpen` and `IsUnbound` is reported, and its fix
    is drawn from its signature and its block. -/
theorem IsAt.exists_report? {rule : Rule} (path : String)
    (h : n.IsAt (s.functionFrame.fill b) source start) (hs : s.IsSound)
    (hb : b.kind = .statementBlock) (hunbound : (s.functionFrame.fill b).IsUnbound)
    (hreturns : rule.options.singleReturnOnly = true → b.returned?.isSome = true)
    (hopen : n.IsOpen rule.options) (hl : n.whole.IsLegible) :
    ∃ v, rule.report? path n = some v ∧
      v.fix = ⟨n.span, s.arrowHead ++ " " ++ b.bodyText rule.options.returnStyle⟩ := by
  obtain ⟨seat, hshows⟩ := h.exists_shows
  obtain ⟨name, context, hcontext, hcandidate⟩ := h.exists_candidate hs hopen.plain hl
  obtain ⟨d, hd, hfix⟩ := h.exists_fix hs hb name context rule.options.returnStyle
  obtain ⟨body, hbody, hbshows⟩ := hshows.exists_field (Signature.field_body_functionFrame hs)
  -- whatever is looked through is one of the phrases that the function is made of
  have hfree : n.scanned.findSomeM? obstacle? = .ok none := by
    refine findSomeM?_eq_ok_none_iff.2 fun m hm => ?_
    have hcontains : n.Contains m := by
      simpa [Scans, h.kind_eq, Signature.functionFrame] using mem_scanned_iff.1 hm
    obtain ⟨q, hq, hqs⟩ := hshows.exists_of_contains hcontains
    exact hqs.obstacle?_eq_none (isUnbound_seated.2 hunbound q hq)
  have hsingle : (n.plainCandidate s name context).IsSingleReturn rule.options := by
    intro hon
    have hshape : n.bodyShape = .blockSingleReturn := by
      rw [hbshows.bodyShape_eq hbody hb]
      exact if_pos (hreturns hon)
    exact ⟨by simp [Candidate.returnsImmediately, plainCandidate, hshape], rfl⟩
  have hasks : (n.plainCandidate s name context).Asks rule.options _ :=
    .function (.inr rfl) {
      safe := ⟨rfl, hfree⟩
      place := (Candidate.prototypeGate?_eq_none_iff hcontext).2 hopen.clear
      body := Candidate.singleReturnGate?_eq_none_iff.2 hsingle }
  have hjudge : rule.judge path (n.plainCandidate s name context) = _ :=
    Rule.judge_eq_violation_iff.2 ⟨_, d, _, hasks, hd, hfix, rfl⟩
  rw [← Rule.check_of_candidate? hcandidate] at hjudge
  exact ⟨_, Rule.report?_eq_some_iff.2 hjudge, rfl⟩

/-- An arrow function with a block is not reported in the style `explicit`, nor one in the style
    `implicit` whose body is anything but a single return. -/
theorem IsAt.report?_arrow {rule : Rule} (path : String)
    (h : n.IsAt (s.arrowFrame.fill b) source start) (hs : s.IsSound)
    (hexplicit : rule.options.returnStyle = .explicit → b.kind = .statementBlock)
    (himplicit : rule.options.returnStyle = .implicit → b.kind = .statementBlock →
      b.returned? = none) : rule.report? path n = none := by
  obtain ⟨seat, hshows⟩ := h.exists_shows
  obtain ⟨body, hbody, hbshows⟩ := hshows.exists_field (Signature.field_body_arrowFrame hs)
  rw [Option.eq_none_iff_forall_ne_some]
  intro v hv
  obtain ⟨c, hc, hjudge⟩ := Rule.exists_judge_of_check (Rule.report?_eq_some_iff.1 hv)
  obtain ⟨m, d, fix, hasks, -⟩ := Rule.judge_eq_violation_iff.1 hjudge
  -- an arrow function is asked for only in a style that its body is not written in
  rcases (makes_of_candidate? hc).body_of_asks h.kind_eq hasks with
    ⟨hstyle, body', hbody', hk⟩ | ⟨hstyle, body', statement, argument, hbody', hk, hr, ha⟩
  · obtain rfl := Option.some.inj (hbody.symm.trans hbody')
    rw [hbshows.kind_eq] at hk
    exact hk (hexplicit hstyle)
  · obtain rfl := Option.some.inj (hbody.symm.trans hbody')
    rw [hbshows.kind_eq] at hk
    have hrel := hbshows.returned?
    rw [hr, Option.bind_some, ha] at hrel
    rw [show (b.seated _).returned? = none from himplicit hstyle hk] at hrel
    cases hrel

end Node

end ArrowLint
