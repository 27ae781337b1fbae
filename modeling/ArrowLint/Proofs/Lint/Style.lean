/-
  ArrowLint.Proofs.Lint.Style

  Two return styles compared. The style has a say in what is reported of arrow functions, and in
  how the body of a function is written that becomes one. So under two styles the same functions
  are reported that are no arrow functions yet, with the same messages and over the same ranges,
  and their texts are made of the same parts but for the body (`Violation.DiffersInBody`). Arrow
  functions are reported for the sake of the style alone: for blocks only those without one, for
  expressions only those whose block returns one and does nothing else, and without a wish for
  either none (`Linter.reports_of_style`).
-/

import Mathlib.Data.List.Forall2
import ArrowLint.Proofs.Candidate.Messages
import ArrowLint.Proofs.Candidate.Reported
import ArrowLint.Proofs.Lint.Reports

namespace ArrowLint

open Node

/-- The options `o` in another return `style`. -/
def Options.inStyle (o : Options) (style : ReturnStyle) : Options :=
  { o with returnStyle := style }

/-! ## The parts of a fix -/

/-- Whether `f` and `f'` put arrow functions in the place of `c` that are made of the same parts,
    with the same text before and after them, and differ in their bodies only: each has the body
    that a style asks for. -/
structure Fix.DiffersInBody (c : Candidate) (style style' : ReturnStyle) (f f' : Fix) : Prop where
  span : f'.span = f.span
  text : ∃ (d : Descriptor) (frame : Arrow) (body body' : String), c.descriptor = .ok d ∧
    bodyText c.bodyShape d.body style = .ok body ∧
    bodyText c.bodyShape d.body style' = .ok body' ∧
    f.text = Arrow.render { frame with body := body } ∧
    f'.text = Arrow.render { frame with body := body' }

theorem memberFix_with_body (entry : Node) (d : Descriptor) (arrow : Arrow) :
    ∃ (span : Span) (frame : Arrow), ∀ body, memberFix entry d { arrow with body := body }
      = ⟨span, Arrow.render { frame with body := body }⟩ := by
  unfold memberFix
  split
  · exact ⟨_, { arrow with lead := _, tail := ";" }, fun body => rfl⟩
  · exact ⟨_, { arrow with lead := _ }, fun body => rfl⟩

/-- What `fixWith` puts around a body does not depend on the body. -/
theorem Candidate.fixWith_with_body (c : Candidate) (d : Descriptor) (arrow : Arrow) :
    ∃ (span : Span) (frame : Arrow), ∀ body, c.fixWith d { arrow with body := body }
      = ⟨span, Arrow.render { frame with body := body }⟩ := by
  unfold fixWith
  split
  · exact memberFix_with_body _ d arrow
  · dsimp only
    split
    · split
      · exact ⟨_, arrow, fun body => rfl⟩
      · exact ⟨_, { arrow with tail := ";" }, fun body => rfl⟩
    · split
      · exact ⟨_, { arrow with lead := _, tail := ";" }, fun body => rfl⟩
      · exact ⟨_, arrow, fun body => rfl⟩

theorem Candidate.fix_eq_ok {c : Candidate} {d : Descriptor} {style : ReturnStyle} {fix : Fix}
    (h : c.fix d style = .ok fix) :
    ∃ body, bodyText c.bodyShape d.body style = .ok body ∧ fix = c.fixWith d
      { isAsync := d.isAsync, typeParameters := d.typeParameters, parameters := d.parameters
        returnType := d.returnType, body := body } := by
  obtain ⟨arrow, ha, rfl⟩ := map_eq_ok_iff.1 h
  obtain ⟨body, hb, rfl⟩ := map_eq_ok_iff.1 ha
  exact ⟨body, hb, rfl⟩

/-- The fixes for one candidate in two styles differ in the body only. -/
theorem Candidate.differsInBody {c : Candidate} {d : Descriptor} {style style' : ReturnStyle}
    {f f' : Fix} (hd : c.descriptor = .ok d) (hf : c.fix d style = .ok f)
    (hf' : c.fix d style' = .ok f') : f.DiffersInBody c style style' f' := by
  obtain ⟨body, hbody, rfl⟩ := fix_eq_ok hf
  obtain ⟨body', hbody', rfl⟩ := fix_eq_ok hf'
  obtain ⟨span, frame, hframe⟩ := c.fixWith_with_body d
    { isAsync := d.isAsync, typeParameters := d.typeParameters, parameters := d.parameters
      returnType := d.returnType }
  rw [hframe body, hframe body']
  exact ⟨rfl, d, frame, body, body', hd, hbody, hbody', rfl, rfl⟩

/-! ## Arrow functions -/

namespace Node

variable {n : Node} {c : Candidate} {o : Options} {m : Message}

/-- A candidate that is an arrow function `Asks` for a message only in a style that its body is not
    written in. -/
theorem Makes.body_of_asks (h : n.Makes c) (hk : n.kind = .arrowFunction) (ha : c.Asks o m) :
    (o.returnStyle = .explicit ∧
      ∃ body, n.field .body = some body ∧ body.kind ≠ .statementBlock) ∨
    (o.returnStyle = .implicit ∧
      ∃ body statement argument, n.field .body = some body ∧ body.kind = .statementBlock ∧
        body.singleReturn = some statement ∧ statement.returnArgument = some argument) := by
  cases h.form with
  | arrowExpression _ body_eq bodyKind shape =>
    cases ha with
    | expressionBody _ style => exact .inl ⟨style, _, body_eq, bodyKind⟩
    | function shape' => simp [shape] at shape'
    | member shape' => simp [shape] at shape'
    | singleReturn shape' => simp [shape] at shape'
  | arrowReturn _ body_eq bodyKind _ shape =>
    cases ha with
    | singleReturn _ style returns =>
      -- it does return at once, and not as an expression does
      have hexpr : c.bodyShape ≠ .expressionBody := by
        rw [h.bodyShape, Ne, bodyShape_eq_expressionBody_iff body_eq]
        simpa using bodyKind
      have hsingle : n.bodyShape = .blockSingleReturn := by
        rw [← h.bodyShape]
        simpa [Candidate.returnsImmediately, hexpr] using returns
      obtain ⟨hblock, statement, argument, hr, ha⟩ := exists_returnArgument body_eq hsingle
      exact .inr ⟨style, _, statement, argument, body_eq, hblock, hr, ha⟩
    | function shape' => simp [shape] at shape'
    | member shape' => simp [shape] at shape'
    | expressionBody shape' => simp [shape] at shape'
  | defaultExport kind => simp [hk] at kind
  | plain kind => simp [hk] at kind
  | memberValue kind => simp [hk] at kind
  | method kind => simp [hk] at kind

/-- A candidate that is no arrow function `Asks` for the same message in every style. -/
theorem Makes.asks_inStyle (h : n.Makes c) (hk : n.kind ≠ .arrowFunction)
    {style style' : ReturnStyle} (ha : c.Asks (o.inStyle style) m) :
    c.Asks (o.inStyle style') m := by
  obtain ⟨hs, hs'⟩ := h.shape_of_ne_arrowFunction hk
  -- none of the conditions on functions and members reads the style
  cases ha with
  | function shape convertible =>
    exact .function shape ⟨convertible.safe, convertible.place, convertible.body⟩
  | member shape admitted convertible =>
    exact .member shape ⟨admitted.place, admitted.noConstructor, admitted.required⟩
      ⟨convertible.safe, convertible.place, convertible.body⟩
  | expressionBody shape => exact absurd shape hs
  | singleReturn shape => exact absurd shape hs'

end Node

/-! ## Reports -/

/-- Whether `p` and `q` are the same report in two styles, but for the body of the arrow function
    that the fix writes. -/
structure Linter.SameButBody (style style' : ReturnStyle) (p q : Node × Violation) : Prop where
  node : q.1 = p.1
  violation : q.2 = { p.2 with fix := q.2.fix }
  fix : ∃ c, p.1.candidate? = .ok (some c) ∧ p.2.fix.DiffersInBody c style style' q.2.fix

namespace Rule

variable {rule : Rule} {path : String} {n : Node} {v : Violation} {o : Options}

theorem exists_report?_inStyle {style style' : ReturnStyle} (hk : n.kind ≠ .arrowFunction)
    (hok : ∃ finding, (rule.withOptions (o.inStyle style')).check path n = .ok finding)
    (hv : (rule.withOptions (o.inStyle style)).report? path n = some v) :
    ∃ w, (rule.withOptions (o.inStyle style')).report? path n = some w ∧
      Linter.SameButBody style style' (n, v) (n, w) := by
  obtain ⟨c, hc, hjudge⟩ := exists_judge_of_check (report?_eq_some_iff.1 hv)
  obtain ⟨m, d, fix, hasks, hd, hfix, rfl⟩ := judge_eq_violation_iff.1 hjudge
  have hasks' : c.Asks (o.inStyle style') m := (makes_of_candidate? hc).asks_inStyle hk hasks
  have hverdict := Candidate.verdict_eq_report_iff.2 hasks'
  obtain ⟨finding, hfinding⟩ := hok
  have hjudge' := hfinding
  rw [check_of_candidate? hc] at hjudge'
  -- what is asked for is not skipped, so there is a fix in the other style, too
  rcases judge_eq_ok hjudge' with ⟨obstacle, hskip, -⟩ | ⟨m', d', fix', hreport, hd', hfix', rfl⟩
  · cases hverdict.symm.trans hskip
  · obtain rfl := Verdict.report.inj (Except.ok.inj (hverdict.symm.trans hreport))
    obtain rfl := Except.ok.inj (hd.symm.trans hd')
    exact ⟨_, report?_eq_some_iff.2 hfinding, rfl, rfl, c, hc,
      Candidate.differsInBody hd hfix hfix'⟩

/-- Of a node that is no arrow function, two styles in which there are answers have the same
    `report?`. -/
theorem rel_report?_inStyle {style style' : ReturnStyle} (hk : n.kind ≠ .arrowFunction)
    (hok : ∃ finding, (rule.withOptions (o.inStyle style)).check path n = .ok finding)
    (hok' : ∃ finding, (rule.withOptions (o.inStyle style')).check path n = .ok finding) :
    Option.Rel (Linter.SameButBody style style')
      (((rule.withOptions (o.inStyle style)).report? path n).map (n, ·))
      (((rule.withOptions (o.inStyle style')).report? path n).map (n, ·)) := by
  cases hv : (rule.withOptions (o.inStyle style)).report? path n with
  | some v =>
    obtain ⟨w, hw, hsame⟩ := exists_report?_inStyle hk hok' hv
    rw [hw]
    exact .some hsame
  | none =>
    cases hw : (rule.withOptions (o.inStyle style')).report? path n with
    | none => exact .none
    | some w =>
      obtain ⟨v, hv', -⟩ := exists_report?_inStyle hk hok hw
      cases hv.symm.trans hv'

/-- An arrow function is reported only in a style that its body is not written in. -/
theorem body_of_check (h : rule.check path n = .ok (.violation v))
    (hk : n.kind = .arrowFunction) :
    (rule.options.returnStyle = .explicit ∧
      ∃ body, n.field .body = some body ∧ body.kind ≠ .statementBlock) ∨
    (rule.options.returnStyle = .implicit ∧
      ∃ body statement argument, n.field .body = some body ∧ body.kind = .statementBlock ∧
        body.singleReturn = some statement ∧ statement.returnArgument = some argument) := by
  obtain ⟨c, hc, hjudge⟩ := exists_judge_of_check h
  obtain ⟨m, d, fix, hasks, -⟩ := judge_eq_violation_iff.1 hjudge
  exact (makes_of_candidate? hc).body_of_asks hk hasks

end Rule

namespace Linter

/-- The `reports` on a source for nodes that are no arrow functions. -/
def functionReports (linter : Linter) (source path : String) : List (Node × Violation) :=
  (linter.reports source path).filter (·.1.kind != .arrowFunction)

variable {linter : Linter} {source path : String} {o : Options}

theorem functionReports_eq_filterMap (linter : Linter) (source path : String) :
    linter.functionReports source path =
      (Node.root (linter.treeOf source path)).walk.filterMap fun n =>
        if n.kind = .arrowFunction then none else (linter.rule.report? path n).map (n, ·) := by
  rw [functionReports, reports, List.filter_filterMap]
  congr 1
  funext n
  cases linter.rule.report? path n with
  | none => simp
  | some v => by_cases hk : n.kind = .arrowFunction <;> simp [Option.filter, hk]

/-- Two styles in which a source can be linted have the same `functionReports`, one by one. -/
theorem forall₂_functionReports {style style' : ReturnStyle} {report report' : LintReport}
    (h : (linter.withOptions (o.inStyle style)).lint source path = .ok report)
    (h' : (linter.withOptions (o.inStyle style')).lint source path = .ok report') :
    List.Forall₂ (SameButBody style style')
      ((linter.withOptions (o.inStyle style)).functionReports source path)
      ((linter.withOptions (o.inStyle style')).functionReports source path) := by
  let nodes := (Node.root (linter.treeOf source path)).walk
  have hsame : List.Forall₂ (fun n m => n = m ∧ n ∈ nodes) nodes nodes :=
    List.forall₂_same.2 fun n hn => ⟨rfl, hn⟩
  rw [functionReports_eq_filterMap, functionReports_eq_filterMap]
  refine List.rel_filterMap ?_ hsame
  rintro n _ ⟨rfl, hn⟩
  by_cases hk : n.kind = .arrowFunction
  · simp only [hk, if_true]
    exact .none
  · simp only [hk, if_false]
    exact Rule.rel_report?_inStyle hk (exists_check_of_mem_walk h hn)
      (exists_check_of_mem_walk h' hn)

theorem body_of_mem_reports {n : Node} {v : Violation}
    (h : (n, v) ∈ linter.reports source path) (hk : n.kind = .arrowFunction) :
    (linter.rule.options.returnStyle = .explicit ∧
      ∃ body, n.field .body = some body ∧ body.kind ≠ .statementBlock) ∨
    (linter.rule.options.returnStyle = .implicit ∧
      ∃ body statement argument, n.field .body = some body ∧ body.kind = .statementBlock ∧
        body.singleReturn = some statement ∧ statement.returnArgument = some argument) :=
  Rule.body_of_check (mem_reports_iff.1 h).2 hk

/-- Options that differ in `returnStyle` report the same functions that are no arrow functions, in
    the same order, with the same messages and for the same ranges; the texts differ in the body of
    the arrow function at most. Arrow functions are reported in the style `explicit` if their body
    is no block, in the style `implicit` if it is a block with nothing but the return of something,
    in no other case, and so in one of the two styles at most. -/
theorem reports_of_style (linter : Linter) (source path : String) (o : Options)
    (style style' : ReturnStyle) :
    ((linter.treeOf source path).IsLegible →
      ∃ report, (linter.withOptions (o.inStyle style)).lint source path = .ok report) ∧
    (∀ report report', (linter.withOptions (o.inStyle style)).lint source path = .ok report →
      (linter.withOptions (o.inStyle style')).lint source path = .ok report' →
      report.result.violations
        = ((linter.withOptions (o.inStyle style)).reports source path).map (·.2) ∧
      List.Forall₂ (SameButBody style style')
        ((linter.withOptions (o.inStyle style)).functionReports source path)
        ((linter.withOptions (o.inStyle style')).functionReports source path)) ∧
    (∀ n v, (n, v) ∈ (linter.withOptions (o.inStyle style)).reports source path →
      n.kind = .arrowFunction →
      (style = .explicit ∧ ∃ body, n.field .body = some body ∧ body.kind ≠ .statementBlock) ∨
      (style = .implicit ∧ ∃ body statement argument, n.field .body = some body ∧
        body.kind = .statementBlock ∧ body.singleReturn = some statement ∧
        statement.returnArgument = some argument)) ∧
    ∀ n v w, (n, v) ∈ (linter.withOptions (o.inStyle .explicit)).reports source path →
      (n, w) ∈ (linter.withOptions (o.inStyle .implicit)).reports source path →
      n.kind ≠ .arrowFunction := by
  refine ⟨fun hl => exists_lint_of_isLegible hl, fun report report' h h' => ?_,
    fun n v hv hk => body_of_mem_reports hv hk, fun n v w hv hw hk => ?_⟩
  · exact ⟨violations_eq_map_reports h, forall₂_functionReports h h'⟩
  · -- the body would have to be a block and to be none
    rcases body_of_mem_reports hv hk with ⟨-, body, hb, hne⟩ | ⟨hstyle, -⟩
    · rcases body_of_mem_reports hw hk with ⟨hstyle, -⟩ | ⟨-, body', -, -, hb', hblock, -⟩
      · cases hstyle
      · rw [Option.some.inj (hb.symm.trans hb')] at hne
        exact hne hblock
    · cases hstyle

end Linter

/-! ## An arrow function and a function -/

/-- The tree of `f = () => 1; function g(){ return f }`. -/
def Tree.arrowAndFunction : Tree :=
  program "f = () => 1; function g()\x7b return f \x7d" [
    .node (.ofText (.other "expression_statement") true 0 "f = () => 1;" []) [
      .node (.ofText .assignmentExpression true 0 "f = () => 1" []) [
        .node (.ofText .identifier true 0 "f" [.left]) [],
        .node (.ofText (.other "=") false 2 "=" []) [],
        .node (.ofText .arrowFunction true 4 "() => 1" []) [
          .node (.ofText (.other "formal_parameters") true 4 "()" [.parameters]) [
            .node (.ofText (.other "(") false 4 "(" []) [],
            .node (.ofText (.other ")") false 5 ")" []) []],
          .node (.ofText (.other "=>") false 7 "=>" []) [],
          .node (.ofText (.other "number") true 10 "1" [.body]) []]],
      .node (.ofText .semicolon false 11 ";" []) []],
    .node (.ofText .functionDeclaration true 13 "function g()\x7b return f \x7d" []) [
      .node (.ofText (.other "function") false 13 "function" []) [],
      .node (.ofText .identifier true 22 "g" [.name]) [],
      .node (.ofText (.other "formal_parameters") true 23 "()" [.parameters]) [
        .node (.ofText (.other "(") false 23 "(" []) [],
        .node (.ofText (.other ")") false 24 ")" []) []],
      .node (.ofText .statementBlock true 25 "\x7b return f \x7d" [.body]) [
        .node (.ofText (.other "\x7b") false 25 "\x7b" []) [],
        .node (.ofText .returnStatement true 27 "return f" []) [
          .node (.ofText (.other "return") false 27 "return" []) [],
          .node (.ofText .identifier true 34 "f" []) []],
        .node (.ofText (.other "\x7d") false 36 "\x7d" []) []]]]

theorem Tree.isParseOf_arrowAndFunction :
    arrowAndFunction.IsParseOf "f = () => 1; function g()\x7b return f \x7d" := by decide

namespace Linter

/-- A linter with a parser that gives the tree `arrowAndFunction`. -/
def arrowAndFunction : Linter :=
  ⟨⟨{}, .default⟩, fun _ _ => ⟨.arrowAndFunction, false⟩⟩

/-- In the style `explicit` both functions are reported, the one that is no arrow function in its
    own way; in the style `implicit` only that one is. -/
theorem reports_of_style_arrowAndFunction :
    (arrowAndFunction.treeOf "f = () => 1; function g()\x7b return f \x7d" "a.ts").IsLegible ∧
    ((arrowAndFunction.withOptions { returnStyle := .explicit }).reports
      "f = () => 1; function g()\x7b return f \x7d" "a.ts").map (·.2.fix) =
      [⟨⟨4, 11⟩, "() => \x7b return 1 \x7d"⟩,
        ⟨⟨13, 37⟩, "const g = () => \x7b return f \x7d;"⟩] ∧
    ((arrowAndFunction.withOptions { returnStyle := .implicit }).reports
      "f = () => 1; function g()\x7b return f \x7d" "a.ts").map (·.2.fix) =
      [⟨⟨13, 37⟩, "const g = () => f;"⟩] ∧
    List.Forall₂ (SameButBody .explicit .implicit)
      ((arrowAndFunction.withOptions { returnStyle := .explicit }).functionReports
        "f = () => 1; function g()\x7b return f \x7d" "a.ts")
      ((arrowAndFunction.withOptions { returnStyle := .implicit }).functionReports
        "f = () => 1; function g()\x7b return f \x7d" "a.ts") := by
  have hlegible : (arrowAndFunction.treeOf "f = () => 1; function g()\x7b return f \x7d"
      "a.ts").IsLegible := Tree.isParseOf_arrowAndFunction.isLegible
  obtain ⟨hlint, hboth, -, -⟩ := reports_of_style arrowAndFunction
    "f = () => 1; function g()\x7b return f \x7d" "a.ts" {} .explicit .implicit
  obtain ⟨report, hreport⟩ := hlint hlegible
  exact ⟨hlegible, rfl, rfl, (hboth report _ hreport rfl).2⟩

end Linter

end ArrowLint
