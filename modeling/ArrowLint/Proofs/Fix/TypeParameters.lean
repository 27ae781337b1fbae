/-
  ArrowLint.Proofs.Fix.TypeParameters

  The type parameters of a rewritten function. They are copied, and nothing that is known of the
  grammar has a part in that (`Linter.typeParameters_copied`). Where the grammar knows markup
  elements, a list that is but a name in angle brackets (`IsBareTypeList`) opens such an element
  when it stands ahead of an arrow function; so does the list that is copied from a function that
  has no more than that (`Linter.bare_type_list_kept`).
-/

import ArrowLint.Proofs.Candidate.Messages
import ArrowLint.Proofs.Fix.Parts
import ArrowLint.Proofs.Lint.Reports

namespace ArrowLint

open Node

/-! ## Lists of type parameters -/

/-- The characters of names. Beyond the first 128 all count but those that are `isBlank`. -/
def isNameCharacter (c : Char) : Bool :=
  c.isAlphanum || c == '_' || c == '$' || (0x80 ≤ c.toNat && !Text.isBlank c)

/-- Whether `list` is a single name in angle brackets, with at most white space around the name. -/
def IsBareTypeList (list : String) : Prop :=
  ∃ before name after : List Char, list.toList = '<' :: (before ++ name ++ after ++ ['>']) ∧
    before.all Text.isBlank = true ∧ after.all Text.isBlank = true ∧
    name ≠ [] ∧ name.all isNameCharacter = true

/-- A `list` with a comma in it is more than a name in angle brackets. -/
theorem not_isBareTypeList_of_comma {list : String} (h : ',' ∈ list.toList) :
    ¬IsBareTypeList list := by
  rintro ⟨before, name, after, hlist, hbefore, hafter, -, hname⟩
  have hnone : ∀ c ∈ before ++ name ++ after, c ≠ ',' := by
    rintro c hc rfl
    rw [List.mem_append, List.mem_append] at hc
    rcases hc with (hc | hc) | hc
    · exact absurd (List.all_eq_true.1 hbefore ',' hc) (by decide)
    · exact absurd (List.all_eq_true.1 hname ',' hc) (by decide)
    · exact absurd (List.all_eq_true.1 hafter ',' hc) (by decide)
  rw [hlist, List.mem_cons, List.mem_append, List.mem_singleton] at h
  rcases h with h | h | h
  · cases h
  · exact hnone ',' h rfl
  · cases h

/-! ## Reports -/

/-- The arrow function that `n` `Becomes` has the type parameters of `n`. -/
theorem Node.Becomes.typeParameters {n types : Node} {style : ReturnStyle} {a : Arrow}
    (h : n.Becomes style a) (ht : n.field .typeParameters = some types) :
    types.text = .ok a.typeParameters := by
  obtain ⟨c, d, hc, hd, ha⟩ := h
  have htypes := (Candidate.describes_of_descriptor hd).typeParameters
  obtain ⟨body, -, rfl⟩ := map_eq_ok_iff.1 ha
  rw [(makes_of_candidate? hc).node, fieldText, ht] at htypes
  exact htypes

/-- What is reported of `n` in the file at `path` is reported with the same fix in every other
    file. -/
theorem Rule.exists_check_at {rule : Rule} {path : String} {n : Node} {v : Violation}
    (h : rule.check path n = .ok (.violation v)) (path' : String) :
    ∃ w, rule.check path' n = .ok (.violation w) ∧ w.fix = v.fix := by
  obtain ⟨c, hc, hjudge⟩ := exists_judge_of_check h
  obtain ⟨m, d, fix, hasks, hd, hfix, rfl⟩ := judge_eq_violation_iff.1 hjudge
  refine ⟨rule.violationOf path' c m fix, ?_, rfl⟩
  rw [check_of_candidate? hc]
  exact judge_eq_violation_iff.2 ⟨m, d, fix, hasks, hd, hfix, rfl⟩

namespace Linter

variable {linter : Linter} {source path : String} {n types : Node} {v : Violation}

/-- The type parameters of a function that is reported stand in the fix as they stand in the source,
    whichever grammar that is read with. So the `list` `IsBareTypeList` in the fix just when it is
    one in the source, and never with a comma in it. -/
theorem typeParameters_copied (h : (n, v) ∈ linter.reports source path)
    (ht : n.field .typeParameters = some types) :
    ∃ (list : String) (a : Arrow) (lead tail : String), types.text = .ok list ∧
      n.Becomes linter.rule.options.returnStyle a ∧ a.typeParameters = list ∧
      v.fix.text = lead ++ ((if a.isAsync then "async " else "") ++ list ++ "("
        ++ ", ".intercalate a.parameters ++ ")" ++ a.returnType ++ " => " ++ a.body) ++ tail ∧
      (IsBareTypeList a.typeParameters ↔ IsBareTypeList list) ∧
      (',' ∈ list.toList → ¬IsBareTypeList a.typeParameters) ∧
      ∀ path', ∃ w, linter.rule.check path' n = .ok (.violation w) ∧ w.fix = v.fix := by
  have hcheck := (mem_reports_iff.1 h).2
  obtain ⟨a, lead, tail, hbecomes, htext⟩ := Rule.exists_becomes_of_check hcheck
  rw [hbecomes.isAlone.render_eq] at htext
  exact ⟨a.typeParameters, a, lead, tail, hbecomes.typeParameters ht, hbecomes, rfl, htext,
    Iff.rfl, not_isBareTypeList_of_comma, Rule.exists_check_at hcheck⟩

end Linter

/-! ## A function with one type parameter -/

/-- The function in `function f<T>(a: T){ return a }`. -/
def Tree.genericFunction : Tree :=
  .node (.ofText .functionDeclaration true 0 "function f<T>(a: T)\x7b return a \x7d" []) [
    .node (.ofText (.other "function") false 0 "function" []) [],
    .node (.ofText .identifier true 9 "f" [.name]) [],
    .node (.ofText (.other "type_parameters") true 10 "<T>" [.typeParameters]) [
      .node (.ofText (.other "<") false 10 "<" []) [],
      .node (.ofText (.other "type_parameter") true 11 "T" []) [
        .node (.ofText (.other "type_identifier") true 11 "T" [.name]) []],
      .node (.ofText (.other ">") false 12 ">" []) []],
    .node (.ofText (.other "formal_parameters") true 13 "(a: T)" [.parameters]) [
      .node (.ofText (.other "(") false 13 "(" []) [],
      .node (.ofText (.other "required_parameter") true 14 "a: T" []) [
        .node (.ofText .identifier true 14 "a" []) [],
        .node (.ofText (.other "type_annotation") true 15 ": T" []) [
          .node (.ofText (.other ":") false 15 ":" []) [],
          .node (.ofText (.other "type_identifier") true 17 "T" []) []]],
      .node (.ofText (.other ")") false 18 ")" []) []],
    .node (.ofText .statementBlock true 19 "\x7b return a \x7d" [.body]) [
      .node (.ofText (.other "\x7b") false 19 "\x7b" []) [],
      .node (.ofText .returnStatement true 21 "return a" []) [
        .node (.ofText (.other "return") false 21 "return" []) [],
        .node (.ofText .identifier true 28 "a" []) []],
      .node (.ofText (.other "\x7d") false 30 "\x7d" []) []]]

/-- The function of `genericFunction` in its program. -/
def Node.genericFunction : Node :=
  ⟨.genericFunction, [⟨.ofText (.other "program") true 0
    "function f<T>(a: T)\x7b return a \x7d" [], [], []⟩]⟩

theorem Node.isParseOf_genericFunction :
    Node.genericFunction.whole.IsParseOf "function f<T>(a: T)\x7b return a \x7d" := by
  decide

namespace Linter

/-- A linter with a parser that knows the tree of `genericFunction`. -/
def genericFunction : Linter :=
  ⟨⟨{}, .default⟩, .ofTree "function f<T>(a: T)\x7b return a \x7d" Node.genericFunction.whole⟩

theorem genericFunction_reports :
    (Node.genericFunction, {
      code := "UseArrowWhenFunction"
      message := "Prefer using arrow functions over plain functions"
      location := "f.tsx:1:0"
      line := 1
      fix := ⟨⟨0, 31⟩, "const f = <T>(a: T) => a;"⟩ })
      ∈ genericFunction.reports "function f<T>(a: T)\x7b return a \x7d" "f.tsx" :=
  mem_reports_iff.2 ⟨Node.genericFunction.mem_walk_root, rfl⟩

/-- The type parameter list `<T>` of `genericFunction` is copied. -/
theorem typeParameters_copied_genericFunction :
    ∃ (v : Violation) (types : Node) (a : Arrow) (lead tail : String), (Node.genericFunction, v)
        ∈ genericFunction.reports "function f<T>(a: T)\x7b return a \x7d" "f.tsx" ∧
      Node.genericFunction.field .typeParameters = some types ∧
      v.fix = ⟨⟨0, 31⟩, "const f = <T>(a: T) => a;"⟩ ∧ types.text = .ok "<T>" ∧
      v.fix.text = lead ++ ((if a.isAsync then "async " else "") ++ "<T>" ++ "("
        ++ ", ".intercalate a.parameters ++ ")" ++ a.returnType ++ " => " ++ a.body) ++ tail := by
  obtain ⟨list, a, lead, tail, htypes, -, -, htext, -⟩ :=
    typeParameters_copied genericFunction_reports rfl
  obtain rfl : "<T>" = list := Except.ok.inj htypes
  exact ⟨_, _, a, lead, tail, genericFunction_reports, rfl, rfl, htypes, htext⟩

/-- A list that `IsBareTypeList` is not kept out of what is written in the grammar `tsx`, which
    knows markup elements. -/
theorem bare_type_list_kept :
    ¬ ∀ (linter : Linter) (source path : String) (n types : Node) (v : Violation) (a : Arrow),
      linter.parser.IsFaithful → Grammar.ofPath path = .tsx →
      (n, v) ∈ linter.reports source path → n.field .typeParameters = some types →
      n.Becomes linter.rule.options.returnStyle a → ¬IsBareTypeList a.typeParameters := by
  intro h
  have hnone := h genericFunction "function f<T>(a: T)\x7b return a \x7d" "f.tsx"
    Node.genericFunction _ _ _ (Parser.isFaithful_ofTree Node.isParseOf_genericFunction) rfl
    genericFunction_reports rfl ⟨_, _, rfl, rfl, rfl⟩
  exact hnone ⟨[], ['T'], [], rfl, rfl, rfl, by simp, rfl⟩

end Linter

end ArrowLint
