/-
  ArrowLint.Proofs.Fix.Moved

  What a rewrite moves into the arrow function. The extractor reads four parts of a function from
  its fields (`Candidate.Moves`), and the arrow function is made of the texts of these and of marks
  of its own (`Arrow.IsMadeOf`). What is scanned for names that are bound to the function is chosen
  elsewhere: all of the function, but of a method four fields only.

    * `Candidate.Moves.scans`: all that is moved is scanned, so of a function that is reported
      nothing is moved that has such a name in it;
    * `Node.not_scans_of_contains`: what else there is of a method is not scanned, and nothing of
      it is moved; its key and its modifiers are written ahead of the arrow function
      (`Node.IsMethodText`).
-/

import ArrowLint.Proofs.Candidate.Reported
import ArrowLint.Proofs.Fix.BodyStyle
import ArrowLint.Proofs.Fix.Replacement
import ArrowLint.Proofs.Syntax.Nesting

namespace ArrowLint

open Node

/-! ## What is moved -/

/-- The parts of an `Arrow` that come from the source. -/
inductive Arrow.Part where
  | typeParameters
  | parameter
  | returnType
  | body

/-- The nodes that a rewrite of `c` in a return `style` moves, each with the part that it
    becomes. -/
inductive Candidate.Moves (c : Candidate) (style : ReturnStyle) : Arrow.Part → Node → Prop
  | typeParameters {p : Node} (held : c.node.field .typeParameters = some p) :
      Moves c style .typeParameters p
  | bareParameter {p : Node} (held : c.node.field .parameter = some p) :
      Moves c style .parameter p
  | parameter {list p : Node} (unheld : c.node.field .parameter = none)
      (held : c.node.field .parameters = some list) (mem : p ∈ list.statements) :
      Moves c style .parameter p
  | returnType {p : Node} (kept : c.keepsReturnType = true)
      (held : c.node.field .returnType = some p) : Moves c style .returnType p
  | body {p : Node} (held : c.node.field .body = some p)
      (whole : style = .explicit ∨ ∀ e, ¬p.Returns e) : Moves c style .body p
  | expression {block e : Node} (held : c.node.field .body = some block)
      (lifts : style ≠ .explicit) (returns : block.Returns e) : Moves c style .body e

/-- Whether the parts of an arrow function are the texts of nodes that are moved, the body with
    parentheses or a block around it where it needs them, and it `IsAlone`. -/
structure Arrow.IsMadeOf (a : Arrow) (moves : Arrow.Part → Node → Prop) : Prop
    extends a.IsAlone where
  typeParameters : a.typeParameters = "" ∨
    ∃ p, moves .typeParameters p ∧ p.text = .ok a.typeParameters
  parameters : ∃ ps : List Node, (∀ p ∈ ps, moves .parameter p) ∧
    ps.map Node.text = a.parameters.map .ok
  returnType : a.returnType = "" ∨ ∃ p, moves .returnType p ∧ p.text = .ok a.returnType
  body : ∃ p source, moves .body p ∧ p.text = .ok source ∧
    (a.body = source ∨ a.body = parenthesised source ∨
      a.body = "\x7b return " ++ source ++ " \x7d")

/-- How the text for a method is put together: its modifiers, if it is one of a class, and its key
    stand ahead of `arrow`. -/
inductive Node.IsMethodText (n : Node) (arrow : String) : String → Prop
  | inClass {key : Node} {modifiers : List String} {name : String}
      (inClass : n.isClassMember = true) (modifiers_eq : n.HasModifiers modifiers)
      (key_eq : n.field .name = some key) (name_eq : key.text = .ok name) :
      IsMethodText n arrow (" ".intercalate (modifiers ++ [name]) ++ " = " ++ arrow ++ ";")
  | inObject {key : Node} {name : String} (outside : n.isClassMember = false)
      (key_eq : n.field .name = some key) (name_eq : key.text = .ok name) :
      IsMethodText n arrow (name ++ ": " ++ arrow)

/-! ## What is moved is scanned -/

namespace Node

variable {n m p t : Node} {f : Field}

theorem Scans.trans (h : n.Scans m) (hp : m.Contains p) : n.Scans p := by
  unfold Scans at h ⊢
  split
  · next hk =>
    rw [if_pos hk] at h
    obtain ⟨f, hf, part, hpart, hm⟩ := h
    exact ⟨f, hf, part, hpart, hm.trans hp⟩
  · next hk =>
    rw [if_neg hk] at h
    exact h.trans hp

theorem scans_of_field (hf : f ∈ methodParts) (h : n.field f = some p) : n.Scans p := by
  unfold Scans
  split
  · exact ⟨f, hf, p, h, .self p⟩
  · exact contains_of_mem_children (field_mem_children h)

/-- Of a method the function scans nothing below a child `t` that is none of the `methodParts`. -/
theorem not_scans_of_contains (hk : n.kind = .methodDefinition) (ht : t ∈ n.children)
    (hnone : ∀ f ∈ methodParts, n.field f ≠ some t) (hm : t.Contains m) : ¬n.Scans m := by
  rw [Scans, if_pos hk]
  rintro ⟨f, hf, part, hpart, hm'⟩
  -- a child that shares something with one of the parts is that part
  exact hnone f hf (eq_of_contains (field_mem_children hpart) ht hm' hm ▸ hpart)

end Node

namespace Candidate

variable {c : Candidate} {d : Descriptor} {a : Arrow} {style : ReturnStyle} {part : Arrow.Part}
  {p t : Node}

/-- All that `c` `Moves` is scanned. Of the fields that are read, `parameter` alone is not scanned
    in a method, and a method has none. -/
theorem Moves.scans (h : c.Moves style part p)
    (hp : c.node.kind = .methodDefinition → c.node.field .parameter = none) :
    c.node.Scans p := by
  cases h with
  | typeParameters held => exact scans_of_field (by simp [methodParts]) held
  | bareParameter held =>
    unfold Scans
    rw [if_neg fun hk => by simp [hp hk] at held]
    exact contains_of_mem_children (field_mem_children held)
  | parameter _ held mem =>
    exact (scans_of_field (by simp [methodParts]) held).trans
      (contains_of_mem_children (mem_children_of_mem_statements mem))
  | returnType _ held => exact scans_of_field (by simp [methodParts]) held
  | body held => exact scans_of_field (by simp [methodParts]) held
  | expression held _ returns =>
    exact (scans_of_field (by simp [methodParts]) held).trans returns.contains

/-- What is moved from a method lies apart from each child that is none of the `methodParts`. -/
theorem Moves.apart (h : c.Moves style part p) (hk : c.node.kind = .methodDefinition)
    (hp : c.node.field .parameter = none) (ht : t ∈ c.node.children)
    (hnone : ∀ f ∈ methodParts, c.node.field f ≠ some t) : ¬t.Contains p ∧ ¬p.Contains t :=
  ⟨fun hin => not_scans_of_contains hk ht hnone hin (h.scans fun _ => hp),
    fun haround => not_scans_of_contains hk ht hnone (.self t)
      ((h.scans fun _ => hp).trans haround)⟩

/-! ## The arrow function is made of what is moved -/

theorem exists_moves_of_parameterTexts {texts : List String} (h : c.parameterTexts = .ok texts) :
    ∃ ps : List Node, (∀ p ∈ ps, c.Moves style .parameter p) ∧
      ps.map Node.text = texts.map .ok := by
  unfold parameterTexts at h
  split at h
  · next bare hb =>
    obtain ⟨text, ht, rfl⟩ := map_eq_ok_iff.1 h
    refine ⟨[bare], fun p hp => ?_, by simp [ht]⟩
    rw [List.mem_singleton.1 hp]
    exact .bareParameter hb
  · next hb =>
    split at h
    · next list hl =>
      exact ⟨list.statements, fun p hp => .parameter hb hl hp, mapM_eq_ok_iff.1 h⟩
    · obtain rfl := Except.ok.inj h
      exact ⟨[], by simp, rfl⟩

theorem exists_moves_of_bodyText {n body : Node} {text : String} (hn : c.node = n)
    (hb : n.field .body = some body) (h : bodyText n.bodyShape body style = .ok text) :
    ∃ p source, c.Moves style .body p ∧ p.text = .ok source ∧
      (text = source ∨ text = parenthesised source ∨
        text = "\x7b return " ++ source ++ " \x7d") := by
  have hbody : c.node.field .body = some body := by rw [hn, hb]
  by_cases hlift : style ≠ .explicit ∧ ∃ e, body.Returns e
  · obtain ⟨hs, e, he⟩ := hlift
    rw [bodyText_of_returns hb he hs] at h
    obtain ⟨source, hlifted⟩ := exists_isLiftedAs h
    exact ⟨e, source, .expression hbody hs he, hlifted.source_eq, hlifted.form.imp_right .inl⟩
  · have hwhole : style = .explicit ∨ ∀ e, ¬body.Returns e := by
      rw [← not_exists]
      exact (Classical.not_and_iff_not_or_not.1 hlift).imp_left Classical.not_not.1
    by_cases hk : body.kind = .statementBlock
    · rw [bodyText_of_block hb hk hwhole] at h
      exact ⟨body, text, .body hbody hwhole, h, .inl rfl⟩
    · rw [bodyText_of_expression hb hk] at h
      obtain ⟨source, hsource, rfl⟩ := map_eq_ok_iff.1 h
      refine ⟨body, source, .body hbody hwhole, hsource, ?_⟩
      split
      · exact .inl rfl
      · exact .inr (.inr rfl)

/-- The arrow function of a candidate is made of the texts of what it `Moves`. -/
theorem isMadeOf_of_arrow {n : Node} (h : n.Makes c) (hd : c.descriptor = .ok d)
    (ha : d.arrow c.bodyShape style = .ok a) : a.IsMadeOf (c.Moves style) := by
  have hdesc := describes_of_descriptor hd
  have halone := Descriptor.isAlone_arrow ha
  obtain ⟨body, hbody, rfl⟩ := map_eq_ok_iff.1 ha
  refine {
    toIsAlone := halone
    typeParameters := ?_
    parameters := exists_moves_of_parameterTexts hdesc.parameters
    returnType := ?_
    body := exists_moves_of_bodyText h.node (h.node ▸ hdesc.body) (h.bodyShape ▸ hbody) }
  · rcases eq_empty_or_exists_of_fieldText hdesc.typeParameters with hnone | ⟨p, hp, ht⟩
    · exact .inl hnone
    · exact .inr ⟨p, .typeParameters hp, ht⟩
  · have hreturn := hdesc.returnType
    unfold returnTypeText at hreturn
    split at hreturn
    · next hkept =>
      rcases eq_empty_or_exists_of_fieldText hreturn with hnone | ⟨p, hp, ht⟩
      · exact .inl hnone
      · exact .inr ⟨p, .returnType hkept hp, ht⟩
    · exact .inl (Except.ok.inj hreturn).symm

end Candidate

/-! ## Reports -/

namespace Rule

variable {rule : Rule} {path : String} {n : Node} {c : Candidate} {a : Arrow} {v : Violation}

/-- The fix for a method has its key and its modifiers ahead of the arrow function. -/
theorem isMethodText_of_check (hv : rule.check path n = .ok (.violation v))
    (hk : n.kind = .methodDefinition) (ha : n.Becomes rule.options.returnStyle a) :
    n.IsMethodText a.render v.fix.text := by
  obtain ⟨s, hs, hdemands⟩ := exists_stands_of_check hv
  obtain ⟨key, hkey, rfl⟩ := hs.of_methodDefinition hk
  obtain ⟨c, d, hc, hd, ha⟩ := ha
  have hmakes := makes_of_candidate? hc
  have hkeeps : c.keepsReturnType = false := by
    cases hmakes.form with
    | method _ _ role _ _ _ _ _ isDefaultExport =>
      exact Candidate.keepsReturnType_of_memberRole role isDefaultExport
    | defaultExport kind | plain kind | memberValue kind | arrowExpression kind
    | arrowReturn kind => simp [hk] at kind
  have harrow : n.IsArrowText rule.options.returnStyle false a.render :=
    hkeeps ▸ hmakes.isArrowText hd ha
  generalize hfix : v.fix = fix at hdemands ⊢
  cases hdemands with
  | classMember inClass modifiers_eq name_eq arrow_eq =>
    rw [arrow_eq.unique harrow]
    exact .inClass inClass modifiers_eq hkey name_eq
  | otherMember outside name_eq arrow_eq =>
    rw [arrow_eq.unique harrow]
    exact .inObject outside hkey name_eq

/-- All that `c` `Moves` into the arrow function is `scanned`, and the arrow function is made of
    nothing else. So in what is reported no node that is moved has anything in it that `IsBound`. Of
    a method, all that is none of the `methodParts`, such as the key and what stands ahead of it,
    lies apart from what is moved; the key and the modifiers are written ahead of the arrow
    function. -/
theorem moved_is_scanned (rule : Rule) (path : String) (hc : n.candidate? = .ok (some c))
    (hp : n.kind = .methodDefinition → n.field .parameter = none) :
    (∀ style part p, c.Moves style part p → p ∈ n.scanned) ∧
    (∀ style a, n.Becomes style a → a.IsMadeOf (c.Moves style)) ∧
    (n.kind = .methodDefinition → ∀ t ∈ n.children, (∀ f ∈ methodParts, n.field f ≠ some t) →
      t ∉ n.scanned ∧
      ∀ style part p, c.Moves style part p → ¬t.Contains p ∧ ¬p.Contains t) ∧
    ∀ v, rule.check path n = .ok (.violation v) →
      ∃ a lead tail, n.Becomes rule.options.returnStyle a ∧
        v.fix.text = lead ++ a.render ++ tail ∧
        (∀ part p m, c.Moves rule.options.returnStyle part p → p.Contains m → ¬m.IsBound) ∧
        (n.kind = .methodDefinition → n.IsMethodText a.render v.fix.text) := by
  have hmakes := makes_of_candidate? hc
  have hnode := hmakes.node
  have hscans : ∀ style part p, c.Moves style part p → n.Scans p :=
    fun style part p hmoves => hnode ▸ hmoves.scans (hnode.symm ▸ hp)
  refine ⟨fun style part p hmoves => mem_scanned_iff.2 (hscans style part p hmoves),
    fun style a ha => ?_, fun hk t ht hnone => ⟨?_, fun style part p hmoves => ?_⟩,
    fun v hv => ?_⟩
  · obtain ⟨c', d, hc', hd, ha⟩ := ha
    obtain rfl := Option.some.inj (Except.ok.inj (hc.symm.trans hc'))
    exact Candidate.isMadeOf_of_arrow hmakes hd ha
  · exact mt mem_scanned_iff.1 (not_scans_of_contains hk ht hnone (.self t))
  · subst hnode
    exact hmoves.apart hk (hp hk) ht hnone
  · obtain ⟨a, lead, tail, hbecomes, htext⟩ := exists_becomes_of_check hv
    refine ⟨a, lead, tail, hbecomes, htext, fun part p m hmoves hm => ?_,
      fun hk => isMethodText_of_check hv hk hbecomes⟩
    -- what is scanned has been looked at, and it would have kept the candidate from being reported
    have hunbound := (isReportable_of_check hc hv).unbound
    rw [hnode] at hunbound
    exact hunbound m ((hscans _ part p hmoves).trans hm)

end Rule

/-! ## A method by the name of what must not be mentioned -/

/-- The method in `class C { static arguments(a) { return a; } }`. -/
def Tree.staticArguments : Tree :=
  .node (.ofText .methodDefinition true 10 "static arguments(a) \x7b return a; \x7d" []) [
    .node (.ofText (.other "static") false 10 "static" []) [],
    .node (.ofText .propertyIdentifier true 17 "arguments" [.name]) [],
    .node (.ofText (.other "formal_parameters") true 26 "(a)" [.parameters]) [
      .node (.ofText (.other "(") false 26 "(" []) [],
      .node (.ofText .identifier true 27 "a" []) [],
      .node (.ofText (.other ")") false 28 ")" []) []],
    .node (.ofText .statementBlock true 30 "\x7b return a; \x7d" [.body]) [
      .node (.ofText (.other "\x7b") false 30 "\x7b" []) [],
      .node (.ofText .returnStatement true 32 "return a;" []) [
        .node (.ofText (.other "return") false 32 "return" []) [],
        .node (.ofText .identifier true 39 "a" []) [],
        .node (.ofText .semicolon false 40 ";" []) []],
      .node (.ofText (.other "\x7d") false 42 "\x7d" []) []]]

/-- The method of `staticArguments` in its place in the class. -/
def Node.staticArguments : Node :=
  ⟨.staticArguments, [
    { label := .ofText .classBody true 8
        "\x7b static arguments(a) \x7b return a; \x7d \x7d" [.body]
      before := [
        .node (.ofText (.other "\x7b") false 8 "\x7b" []) []]
      after := [
        .node (.ofText (.other "\x7d") false 44 "\x7d" []) []] },
    { label := .ofText (.other "class_declaration") true 0
        "class C \x7b static arguments(a) \x7b return a; \x7d \x7d" []
      before := [
        .node (.ofText (.other "type_identifier") true 6 "C" [.name]) [],
        .node (.ofText (.other "class") false 0 "class" []) []]
      after := [] },
    { label := .ofText (.other "program") true 0
        "class C \x7b static arguments(a) \x7b return a; \x7d \x7d" []
      before := []
      after := [] }]⟩

theorem Node.isParseOf_staticArguments : Node.staticArguments.whole.IsParseOf
    "class C \x7b static arguments(a) \x7b return a; \x7d \x7d" := by
  decide

namespace Rule

/-- The key of the method is `arguments`, which nothing in the method may mention. It is not
    scanned, so the method is reported, and it stands ahead of the arrow function. -/
theorem moved_is_scanned_staticArguments :
    Node.staticArguments.whole.IsParseOf
      "class C \x7b static arguments(a) \x7b return a; \x7d \x7d" ∧
    ∃ c v key, Node.staticArguments.candidate? = .ok (some c) ∧
      Node.staticArguments.field .parameter = none ∧
      check ⟨{ classPropertiesAllowed := true }, .default⟩ "a.ts" Node.staticArguments
        = .ok (.violation v) ∧
      v.fix = ⟨⟨10, 43⟩, "static arguments = (a) => a;"⟩ ∧
      Node.staticArguments.field .name = some key ∧ key.IsBound ∧
      key ∉ Node.staticArguments.scanned ∧
      (∀ part p m, c.Moves .unchanged part p → p.Contains m → ¬m.IsBound) ∧
      ∃ (a : Arrow) (lead tail : String), v.fix.text = lead ++ a.render ++ tail ∧
        a.IsMadeOf (c.Moves .unchanged) ∧
        Node.staticArguments.IsMethodText a.render v.fix.text := by
  obtain ⟨-, hmade, houtside, hreport⟩ := @moved_is_scanned Node.staticArguments _
    ⟨{ classPropertiesAllowed := true }, .default⟩ "a.ts" rfl fun _ => rfl
  obtain ⟨a, lead, tail, hbecomes, htext, hunbound, hmethod⟩ := hreport _ rfl
  -- the key is told from the four parts by its kind
  have hkind : ∀ f ∈ methodParts, (Node.staticArguments.field f).map Node.kind ≠
      some .propertyIdentifier := by decide
  refine ⟨Node.isParseOf_staticArguments, _, _, _, rfl, rfl, rfl, rfl, rfl, .arguments rfl rfl, ?_,
    hunbound, a, lead, tail, htext, hmade _ a hbecomes, hmethod rfl⟩
  refine (houtside rfl _ (field_mem_children (f := .name) rfl) fun f hf hkey => hkind f hf ?_).1
  rw [hkey]
  rfl

end Rule

end ArrowLint
