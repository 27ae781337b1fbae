/-
  ArrowLint.Proofs.Candidate.OwnName

  Functions with a name of their own. An arrow function has no name, so the name of a function
  expression is lost with it, and so is that of a function that is exported by default
  (`Candidate.DropsName`). A function that calls itself by such a name has nothing to call any
  more. The rule does not look for that: it reports a function, its name is left out of what
  takes its place, and every function that looks the same is reported as well, whichever names
  it mentions (`Rule.own_name_unread`).
-/

import ArrowLint.Proofs.Candidate.Reported
import ArrowLint.Proofs.Candidate.Words
import ArrowLint.Proofs.Fix.Operand

namespace ArrowLint

open Node Text

/-- Whether an arrow function in the place of `c` leaves out the name `own` that the function
    has. -/
structure Candidate.DropsName (c : Candidate) (own : Node) : Prop where
  named : c.node.field .name = some own
  dropped : c.node.kind = .functionExpression ∨ c.isDefaultExport = true

/-- Whether no identifier in `n` but `own` has the text of `own`. -/
def Node.IsOnlyMention (n own : Node) : Prop :=
  ∀ m, n.Contains m → m.kind = .identifier → m.text = own.text → m = own

namespace Node.Makes

variable {n own : Node} {c : Candidate} {o : Options}

/-- A candidate that `DropsName` is a function declaration or expression. -/
theorem kind_of_dropsName (h : n.Makes c) (hd : c.DropsName own) :
    n.kind = .functionDeclaration ∨ n.kind = .functionExpression := by
  have hk := hd.dropped
  rw [h.node] at hk
  cases h.form with
  | defaultExport kind => exact kind
  | plain kind =>
    rcases kind with ⟨hk, -⟩ | ⟨hk, -⟩
    · exact .inl hk
    · exact .inr hk
  | memberValue kind => exact .inr kind
  | method kind _ _ _ _ _ _ _ isDefaultExport => simp [kind, isDefaultExport] at hk
  | arrowExpression kind _ _ _ _ _ _ isDefaultExport => simp [kind, isDefaultExport] at hk
  | arrowReturn kind _ _ _ _ _ _ _ isDefaultExport => simp [kind, isDefaultExport] at hk

/-- What `fixWith` writes for a function that `DropsName`, and is the value of no member, is the
    arrow function with nothing ahead of it. -/
theorem fixWith_of_dropsName (h : n.Makes c) (hd : c.DropsName own) (he : c.entry = none)
    (d : Descriptor) (arrow : Arrow) :
    (c.fixWith d arrow).text = arrow.render ∨
      (c.fixWith d arrow).text = { arrow with tail := ";" }.render := by
  have hk := hd.dropped
  rw [h.node] at hk
  cases h.form with
  | defaultExport _ _ _ shape _ _ _ isDefaultExport =>
    -- only the semicolon depends on what follows
    unfold Candidate.fixWith
    rw [shape, isDefaultExport]
    dsimp only
    cases c.node.isFollowedBySemicolon with
    | true => exact .inl rfl
    | false => exact .inr rfl
  | plain kind _ _ shape _ _ isDefaultExport =>
    rcases kind with ⟨hk', -⟩ | ⟨-, role⟩
    · simp [hk', isDefaultExport] at hk
    · rw [Candidate.fixWith_of_expression shape role isDefaultExport]
      exact .inl rfl
  | memberValue _ _ _ _ _ _ _ _ _ _ entry => rw [entry] at he; cases he
  | method _ _ _ _ _ _ _ entry => rw [entry] at he; cases he
  | arrowExpression kind _ _ _ _ _ _ isDefaultExport => simp [kind, isDefaultExport] at hk
  | arrowReturn kind _ _ _ _ _ _ _ isDefaultExport => simp [kind, isDefaultExport] at hk

/-- Of the names that are dropped two are noticed: `arguments`, and any that is exported by default
    while `singleReturnOnly` is set. -/
theorem own_name_of_isReportable (h : n.Makes c) (hd : c.DropsName own) (hr : c.IsReportable o) :
    (own.kind.isIdentifier = true → own.text ≠ .ok "arguments") ∧
      (c.isNamedDefaultExport = true → o.singleReturnOnly = false) := by
  have hk := h.kind_of_dropsName hd
  rw [← h.node] at hk
  have hmethod : c.node.kind ≠ .methodDefinition := by
    rcases hk with hk | hk <;> simp [hk]
  have harrow : c.node.kind ≠ .arrowFunction := by
    rcases hk with hk | hk <;> simp [hk]
  constructor
  · intro hidentifier htext
    -- the name lies in what is looked through
    have hscans : c.node.Scans own := by
      rw [Scans, if_neg hmethod]
      exact contains_of_mem_children (field_mem_children hd.named)
    exact hr.unbound own hscans (.arguments hidentifier htext)
  · intro hnamed
    cases hsingle : o.singleReturnOnly with
    | false => rfl
    | true =>
      have hunnamed := (hr.function harrow hsingle).2
      rw [hnamed] at hunnamed
      cases hunnamed

end Node.Makes

namespace Rule

variable {n own : Node} {c : Candidate} {v : Violation}

/-- A function that is reported and loses its name has nothing of it in its fix, unless the fix is
    for a member. Whether it mentions the name is not looked at: all that looks the same with the
    texts blotted out is reported, too. Only functions with the name `arguments`, and named ones
    that are exported while only single returns are reported, are left alone. -/
theorem own_name_unread (rule : Rule) (path : String) (hc : n.candidate? = .ok (some c))
    (hd : c.DropsName own) (hv : rule.check path n = .ok (.violation v)) :
    (∃ d arrow, c.descriptor = .ok d ∧
      d.arrow c.bodyShape rule.options.returnStyle = .ok arrow ∧ v.fix = c.fixWith d arrow ∧
      (c.entry = none →
        v.fix.text = arrow.render ∨ v.fix.text = { arrow with tail := ";" }.render)) ∧
    (own.kind.isIdentifier = true → own.text ≠ .ok "arguments") ∧
    (c.isNamedDefaultExport = true → rule.options.singleReturnOnly = false) ∧
    ∀ m : Node, n.IsLike m → m.whole.IsLegible →
      ∃ fix, rule.check path m = .ok (.violation { v with fix := fix }) := by
  have hmakes := makes_of_candidate? hc
  have hjudge := hv
  rw [check_of_candidate? hc] at hjudge
  obtain ⟨harguments, hsingle⟩ := hmakes.own_name_of_isReportable hd (isReportable_of_check hc hv)
  refine ⟨?_, harguments, hsingle, fun m hlike hl => reports_of_isLike hlike hl hv⟩
  obtain ⟨_, d, -, hdescriptor, hfix, -⟩ := judge_eq_violation hjudge
  obtain ⟨arrow, harrow, hvfix⟩ := map_eq_ok_iff.1 hfix
  refine ⟨d, arrow, hdescriptor, harrow, hvfix.symm, fun he => ?_⟩
  rw [← hvfix]
  exact hmakes.fixWith_of_dropsName hd he d arrow

end Rule

/-! ## A function that calls itself -/

/-- The function in `let f = function g(){ g() }`, or with a call of another name in it. -/
def Tree.namedFunction (callee : String) : Tree :=
  .node (.ofText .functionExpression true 8 ("function g()\x7b " ++ callee ++ "() \x7d")
      [.value]) [
    .node (.ofText (.other "function") false 8 "function" []) [],
    .node (.ofText .identifier true 17 "g" [.name]) [],
    .node (.ofText (.other "formal_parameters") true 18 "()" [.parameters]) [
      .node (.ofText (.other "(") false 18 "(" []) [],
      .node (.ofText (.other ")") false 19 ")" []) []],
    .node (.ofText .statementBlock true 20 ("\x7b " ++ callee ++ "() \x7d") [.body]) [
      .node (.ofText (.other "\x7b") false 20 "\x7b" []) [],
      .node (.ofText (.other "expression_statement") true 22 (callee ++ "()") []) [
        .node (.ofText .callExpression true 22 (callee ++ "()") []) [
          .node (.ofText .identifier true 22 callee []) [],
          .node (.ofText (.other "arguments") true 23 "()" []) [
            .node (.ofText (.other "(") false 23 "(" []) [],
            .node (.ofText (.other ")") false 24 ")" []) []]]],
      .node (.ofText (.other "\x7d") false 26 "\x7d" []) []]]

/-- The function expression of `namedFunction callee` in its place. -/
def Node.namedFunction (callee : String) : Node :=
  ⟨.namedFunction callee, [
    { label := .ofText (.other "variable_declarator") true 4
        ("f = function g()\x7b " ++ callee ++ "() \x7d") []
      before := [
        .node (.ofText (.other "=") false 6 "=" []) [],
        .node (.ofText .identifier true 4 "f" [.name]) []]
      after := [] },
    { label := .ofText (.other "lexical_declaration") true 0
        ("let f = function g()\x7b " ++ callee ++ "() \x7d") []
      before := [
        .node (.ofText (.other "let") false 0 "let" []) []]
      after := [] },
    { label := .ofText (.other "program") true 0
        ("let f = function g()\x7b " ++ callee ++ "() \x7d") []
      before := [], after := [] }]⟩

theorem Node.isParseOf_namedFunction_g :
    (Node.namedFunction "g").whole.IsParseOf "let f = function g()\x7b g() \x7d" := by decide

theorem Node.isLike_namedFunction : (Node.namedFunction "h").IsLike (.namedFunction "g") := by
  -- six texts mention what is called, and none of them is a word that is read
  have hname : blot "h" = blot "g" := by decide
  have hcall : blot ("h" ++ "()") = blot ("g" ++ "()") := by decide
  have hbody : blot ("\x7b " ++ "h" ++ "() \x7d") = blot ("\x7b " ++ "g" ++ "() \x7d") := by decide
  have hfunction : blot ("function g()\x7b " ++ "h" ++ "() \x7d")
      = blot ("function g()\x7b " ++ "g" ++ "() \x7d") := by decide
  have hdeclarator : blot ("f = function g()\x7b " ++ "h" ++ "() \x7d")
      = blot ("f = function g()\x7b " ++ "g" ++ "() \x7d") := by decide
  have hprogram : blot ("let f = function g()\x7b " ++ "h" ++ "() \x7d")
      = blot ("let f = function g()\x7b " ++ "g" ++ "() \x7d") := by decide
  unfold IsLike namedFunction Tree.namedFunction
  simp only [respell, Tree.respell, Tree.respellForest, Step.respell, Label.respell, Label.ofText,
    List.map_cons, List.map_nil, Option.map_some, hname, hcall, hbody, hfunction, hdeclarator,
    hprogram]
  rfl

namespace Rule

/-- The function that calls itself is reported, since the one that calls `h` is: the two look the
    same to the rule. -/
theorem own_name_unread_namedFunction :
    (Node.namedFunction "h").whole.IsParseOf "let f = function g()\x7b h() \x7d" ∧
    ∃ c own v, (Node.namedFunction "h").candidate? = .ok (some c) ∧ c.DropsName own ∧
      check ⟨{}, .default⟩ "f.ts" (.namedFunction "h") = .ok (.violation v) ∧
      v.fix = ⟨⟨8, 27⟩, "() => \x7b h() \x7d"⟩ ∧
      ∃ fix, check ⟨{}, .default⟩ "f.ts" (.namedFunction "g")
        = .ok (.violation { v with fix := fix }) := by
  refine ⟨by decide, _, _, _, rfl, ⟨rfl, .inl rfl⟩, rfl, rfl, ?_⟩
  obtain ⟨-, -, -, hlike⟩ := own_name_unread ⟨{}, .default⟩ "f.ts" (n := .namedFunction "h")
    rfl ⟨rfl, .inl rfl⟩ rfl
  exact hlike _ isLike_namedFunction isParseOf_namedFunction_g.isLegible

/-- A function can be reported though it `DropsName` and calls itself by that name. -/
theorem own_name_mentioned :
    ¬ ∀ (rule : Rule) (path : String) (n own : Node) (c : Candidate) (v : Violation),
      n.candidate? = .ok (some c) → c.DropsName own →
      rule.check path n = .ok (.violation v) → n.IsOnlyMention own := by
  intro h
  have honly := h ⟨{}, .default⟩ "f.ts" (.namedFunction "g") _ _ _ rfl ⟨rfl, .inl rfl⟩ rfl
  -- the call in the body starts behind the name
  have hstarts : ∀ m ∈ (Node.namedFunction "g").walk, m.kind = .identifier →
      m.label.text = some "g" → m.start = 17 := by
    intro m hm hk ht
    rw [honly m (mem_walk_iff.1 hm) hk (text_eq_ok_iff.2 ht)]
    rfl
  exact absurd hstarts (by decide)

end Rule

end ArrowLint
