/-
  ArrowLint.Proofs.Fix.Replacement

  What takes the place of a function, said of the tree alone. A function stands in its program in
  one of five ways (`Node.Stands`), and in no two of them (`Node.Stands.unique`). The parts of it
  that are taken over make up the text of an arrow function (`Node.IsArrowText`); the standing says
  what is written around that text and which bytes of the source go (`Node.Demands`).

  `Rule.fix_of_standing`: what the rule reports of a function is the fix that its standing demands.
-/

import ArrowLint.Proofs.Fix.Parts

namespace ArrowLint

open Node

/-! ## Where a function stands -/

/-- How a function stands in its program, by what its fix has to write. -/
inductive Standing where
  | declaration
  | defaultExport
  | expression
  | arrow
  /-- The function of the member `entry` of an object or a class, which `key` names. -/
  | member (entry key : Node)

/-- Whether the parent of `n` is an export statement with the word `default`. -/
def Node.IsExportedByDefault (n : Node) : Prop :=
  ∃ parent, n.parent = some parent ∧ parent.kind = .exportStatement ∧
    ∃ t ∈ parent.children, t.kind = .defaultKeyword

/-- The `Standing` of a function, by its kind and what is above it. -/
inductive Node.Stands (n : Node) : Standing → Prop
  | declaration (kind : n.kind = .functionDeclaration) (unexported : ¬n.IsExportedByDefault) :
      Stands n .declaration
  | defaultExport (kind : n.kind = .functionDeclaration ∨ n.kind = .functionExpression)
      (exported : n.IsExportedByDefault) : Stands n .defaultExport
  | expression (kind : n.kind = .functionExpression) (unexported : ¬n.IsExportedByDefault)
      (unheld : ∀ parent, n.parent = some parent → parent.isMember = false) :
      Stands n .expression
  | arrow (kind : n.kind = .arrowFunction) : Stands n .arrow
  | method {key : Node} (kind : n.kind = .methodDefinition) (key_eq : n.field .name = some key) :
      Stands n (.member n key)
  | memberValue {entry key : Node} (kind : n.kind = .functionExpression)
      (unexported : ¬n.IsExportedByDefault) (parent_eq : n.parent = some entry)
      (isMember : entry.isMember = true) (key_eq : entry.memberKey = some key) :
      Stands n (.member entry key)

namespace Node

variable {n entry key : Node} {s t : Standing} {style : ReturnStyle} {text text' : String}

theorem isDefaultExport_iff :
    n.isDefaultExport = true ↔
      n.kind = .exportStatement ∧ ∃ t ∈ n.children, t.kind = .defaultKeyword := by
  simp [isDefaultExport]

theorem isExportedByDefault_iff :
    n.IsExportedByDefault ↔ ∃ parent, n.parent = some parent ∧ parent.isDefaultExport = true := by
  simp only [IsExportedByDefault, isDefaultExport_iff]

/-! ### No function stands in two ways -/

theorem Stands.of_functionDeclaration (h : n.Stands s) (hk : n.kind = .functionDeclaration) :
    n.IsExportedByDefault ∧ s = .defaultExport ∨ ¬n.IsExportedByDefault ∧ s = .declaration := by
  cases h with
  | declaration _ unexported => exact .inr ⟨unexported, rfl⟩
  | defaultExport _ exported => exact .inl ⟨exported, rfl⟩
  | expression kind | arrow kind | method kind | memberValue kind => simp [hk] at kind

theorem Stands.of_functionExpression (h : n.Stands s) (hk : n.kind = .functionExpression) :
    n.IsExportedByDefault ∧ s = .defaultExport ∨
      ¬n.IsExportedByDefault ∧
        ((∀ parent, n.parent = some parent → parent.isMember = false) ∧ s = .expression ∨
          ∃ entry key, n.parent = some entry ∧ entry.isMember = true ∧
            entry.memberKey = some key ∧ s = .member entry key) := by
  cases h with
  | defaultExport _ exported => exact .inl ⟨exported, rfl⟩
  | expression _ unexported unheld => exact .inr ⟨unexported, .inl ⟨unheld, rfl⟩⟩
  | memberValue _ unexported parent_eq isMember key_eq =>
    exact .inr ⟨unexported, .inr ⟨_, _, parent_eq, isMember, key_eq, rfl⟩⟩
  | declaration kind | arrow kind | method kind => simp [hk] at kind

theorem Stands.of_arrowFunction (h : n.Stands s) (hk : n.kind = .arrowFunction) : s = .arrow := by
  cases h with
  | arrow => rfl
  | declaration kind | defaultExport kind | expression kind | method kind | memberValue kind =>
    simp [hk] at kind

theorem Stands.of_methodDefinition (h : n.Stands s) (hk : n.kind = .methodDefinition) :
    ∃ key, n.field .name = some key ∧ s = .member n key := by
  cases h with
  | method _ key_eq => exact ⟨_, key_eq, rfl⟩
  | declaration kind | defaultExport kind | expression kind | arrow kind | memberValue kind =>
    simp [hk] at kind

/-- A function `Stands` in one way only. -/
theorem Stands.unique (h : n.Stands s) (h' : n.Stands t) : s = t := by
  -- the kind leaves the export and the parent to decide, and those are the same for both
  cases h with
  | declaration kind unexported =>
    rcases h'.of_functionDeclaration kind with ⟨exported, -⟩ | ⟨-, rfl⟩
    · exact absurd exported unexported
    · rfl
  | defaultExport kind exported =>
    rcases kind with kind | kind
    · rcases h'.of_functionDeclaration kind with ⟨-, rfl⟩ | ⟨unexported, -⟩
      · rfl
      · exact absurd exported unexported
    · rcases h'.of_functionExpression kind with ⟨-, rfl⟩ | ⟨unexported, -⟩
      · rfl
      · exact absurd exported unexported
  | expression kind unexported unheld =>
    rcases h'.of_functionExpression kind with ⟨exported, -⟩ | ⟨-, ⟨-, rfl⟩ | held⟩
    · exact absurd exported unexported
    · rfl
    · obtain ⟨entry, key, parent_eq, isMember, -, -⟩ := held
      simp [unheld entry parent_eq] at isMember
  | arrow kind => exact (h'.of_arrowFunction kind).symm
  | method kind key_eq =>
    obtain ⟨key, key_eq', rfl⟩ := h'.of_methodDefinition kind
    rw [Option.some.inj (key_eq.symm.trans key_eq')]
  | memberValue kind unexported parent_eq isMember key_eq =>
    rcases h'.of_functionExpression kind with ⟨exported, -⟩ | ⟨-, ⟨unheld, -⟩ | held⟩
    · exact absurd exported unexported
    · simp [unheld _ parent_eq] at isMember
    · obtain ⟨entry, key, parent_eq', -, key_eq', rfl⟩ := held
      obtain rfl := Option.some.inj (parent_eq.symm.trans parent_eq')
      rw [Option.some.inj (key_eq.symm.trans key_eq')]

/-! ## What is taken over -/

/-- Whether the parameters of a function have the given texts: the one that stands without
    parentheses, or else all that the list of parameters holds under names of their own, comments
    apart. -/
inductive HasParameters (n : Node) : List String → Prop
  | bare {parameter : Node} {text : String} (held : n.field .parameter = some parameter)
      (text_eq : parameter.text = .ok text) : HasParameters n [text]
  | listed {list : Node} {texts : List String} (unheld : n.field .parameter = none)
      (held : n.field .parameters = some list)
      (texts_eq : (list.children.filter fun p => p.label.isNamed && !p.kind.isComment).map Node.text
        = texts.map .ok) : HasParameters n texts
  | missing (unheld : n.field .parameter = none) (unlisted : n.field .parameters = none) :
      HasParameters n []

/-- Whether the arrow function that `n` becomes in a return `style` has the body `text`. -/
def HasBodyText (n : Node) (style : ReturnStyle) (text : String) : Prop :=
  ∃ body, n.field .body = some body ∧ bodyText n.bodyShape body style = .ok text

/-- Whether `text` is the arrow function that `n` becomes in a return `style`. The return type is
    part of it only if `keepsType`. -/
def IsArrowText (n : Node) (style : ReturnStyle) (keepsType : Bool) (text : String) : Prop :=
  ∃ typeParameters parameters returnType body,
    n.fieldText .typeParameters = .ok typeParameters ∧ n.HasParameters parameters ∧
    (if keepsType then n.fieldText .returnType else .ok "") = .ok returnType ∧
    n.HasBodyText style body ∧
    text = (if n.isAsync then "async " else "") ++ typeParameters
      ++ "(" ++ ", ".intercalate parameters ++ ")" ++ returnType ++ " => " ++ body

/-- The node up to which a member's children count as standing ahead of its name. -/
def nameNode (entry : Node) : Option Node :=
  entry.field .name <|> entry.field .key <|> entry.field .property

/-- Whether the modifiers of a class member have the given texts: all that stands ahead of its
    `nameNode` but comments, `async` and a star. -/
def HasModifiers (entry : Node) (texts : List String) : Prop :=
  ((entry.tokensBefore entry.nameNode).filter fun t =>
    t.kind != .asyncKeyword && t.kind != .star && !t.kind.isComment).map Node.text = texts.map .ok

/-! ### One text at most -/

theorem HasParameters.unique {texts texts' : List String} (h : n.HasParameters texts)
    (h' : n.HasParameters texts') : texts = texts' := by
  cases h with
  | bare held text_eq =>
    cases h' with
    | bare held' text_eq' =>
      obtain rfl := Option.some.inj (held.symm.trans held')
      rw [Except.ok.inj (text_eq.symm.trans text_eq')]
    | listed unheld | missing unheld => simp [held] at unheld
  | listed unheld held texts_eq =>
    cases h' with
    | bare held' => simp [unheld] at held'
    | listed _ held' texts_eq' =>
      obtain rfl := Option.some.inj (held.symm.trans held')
      exact (List.map_inj_right fun _ _ => Except.ok.inj).1 (texts_eq.symm.trans texts_eq')
    | missing _ unlisted => simp [held] at unlisted
  | missing unheld unlisted =>
    cases h' with
    | bare held' => simp [unheld] at held'
    | listed _ held' => simp [unlisted] at held'
    | missing => rfl

theorem HasBodyText.unique (h : n.HasBodyText style text) (h' : n.HasBodyText style text') :
    text = text' := by
  obtain ⟨body, hbody, ht⟩ := h
  obtain ⟨body', hbody', ht'⟩ := h'
  obtain rfl := Option.some.inj (hbody.symm.trans hbody')
  exact Except.ok.inj (ht.symm.trans ht')

theorem IsArrowText.unique {keepsType : Bool} (h : n.IsArrowText style keepsType text)
    (h' : n.IsArrowText style keepsType text') : text = text' := by
  obtain ⟨typeParameters, parameters, returnType, body, ht, hp, hr, hb, rfl⟩ := h
  obtain ⟨typeParameters', parameters', returnType', body', ht', hp', hr', hb', rfl⟩ := h'
  rw [Except.ok.inj (ht.symm.trans ht'), hp.unique hp', Except.ok.inj (hr.symm.trans hr'),
    hb.unique hb']

theorem HasModifiers.unique {texts texts' : List String} (h : entry.HasModifiers texts)
    (h' : entry.HasModifiers texts') : texts = texts' :=
  (List.map_inj_right fun _ _ => Except.ok.inj).1 (h.symm.trans h')

end Node

/-! ## What a standing demands -/

/-- The fix that a `Standing` demands of a function. -/
inductive Node.Demands (n : Node) (style : ReturnStyle) : Standing → Fix → Prop
  /-- A declaration becomes the declaration of a constant. -/
  | declaration {name arrow : String} (name_eq : n.fieldText .name = .ok name)
      (arrow_eq : n.IsArrowText style true arrow) :
      Demands n style .declaration ⟨⟨n.start, n.stop⟩, "const " ++ name ++ " = " ++ arrow ++ ";"⟩
  /-- A default export keeps the words ahead of it. -/
  | defaultExport {arrow : String} (arrow_eq : n.IsArrowText style true arrow) :
      Demands n style .defaultExport
        ⟨⟨n.start, n.stop⟩, arrow ++ if n.isFollowedBySemicolon then "" else ";"⟩
  | expression {arrow : String} (arrow_eq : n.IsArrowText style false arrow) :
      Demands n style .expression ⟨⟨n.start, n.stop⟩, arrow⟩
  | arrow {arrow : String} (arrow_eq : n.IsArrowText style true arrow) :
      Demands n style .arrow ⟨⟨n.start, n.stop⟩, arrow⟩
  /-- A member of a class becomes a field. -/
  | classMember {entry key : Node} {modifiers : List String} {name arrow : String}
      (inClass : entry.isClassMember = true) (modifiers_eq : entry.HasModifiers modifiers)
      (name_eq : key.text = .ok name) (arrow_eq : n.IsArrowText style false arrow) :
      Demands n style (.member entry key) ⟨⟨entry.start, entry.stopWithSemicolon⟩,
        " ".intercalate (modifiers ++ [name]) ++ " = " ++ arrow ++ ";"⟩
  /-- A member of an object becomes a key and a value. -/
  | otherMember {entry key : Node} {name arrow : String} (outside : entry.isClassMember = false)
      (name_eq : key.text = .ok name) (arrow_eq : n.IsArrowText style false arrow) :
      Demands n style (.member entry key) ⟨⟨entry.start, entry.stop⟩, name ++ ": " ++ arrow⟩

/-- A standing `Demands` one fix at most. -/
theorem Node.Demands.unique {n : Node} {style : ReturnStyle} {s : Standing} {f f' : Fix}
    (h : n.Demands style s f) (h' : n.Demands style s f') : f = f' := by
  -- only a member leaves a choice, and there the place of the member makes it
  cases h with
  | declaration name_eq arrow_eq =>
    cases h' with
    | declaration name_eq' arrow_eq' =>
      rw [Except.ok.inj (name_eq.symm.trans name_eq'), arrow_eq.unique arrow_eq']
  | defaultExport arrow_eq =>
    cases h' with
    | defaultExport arrow_eq' => rw [arrow_eq.unique arrow_eq']
  | expression arrow_eq =>
    cases h' with
    | expression arrow_eq' => rw [arrow_eq.unique arrow_eq']
  | arrow arrow_eq =>
    cases h' with
    | arrow arrow_eq' => rw [arrow_eq.unique arrow_eq']
  | classMember inClass modifiers_eq name_eq arrow_eq =>
    cases h' with
    | classMember _ modifiers_eq' name_eq' arrow_eq' =>
      rw [modifiers_eq.unique modifiers_eq', Except.ok.inj (name_eq.symm.trans name_eq'),
        arrow_eq.unique arrow_eq']
    | otherMember outside => simp [inClass] at outside
  | otherMember outside name_eq arrow_eq =>
    cases h' with
    | classMember inClass => simp [outside] at inClass
    | otherMember _ name_eq' arrow_eq' =>
      rw [Except.ok.inj (name_eq.symm.trans name_eq'), arrow_eq.unique arrow_eq']

/-! ## Candidates -/

variable {c : Candidate} {d : Descriptor} {a : Arrow} {style : ReturnStyle} {entry key : Node}

namespace Candidate

theorem hasParameters_of_parameterTexts {texts : List String}
    (h : c.parameterTexts = .ok texts) : c.node.HasParameters texts := by
  unfold parameterTexts at h
  split at h
  · next bare hb =>
    obtain ⟨text, ht, rfl⟩ := map_eq_ok_iff.1 h
    exact .bare hb ht
  · next hb =>
    split at h
    · next list hl =>
      refine .listed hb hl ?_
      rw [← mapM_eq_ok_iff.1 h, statements, namedChildren, List.filter_filter]
      simp only [Bool.and_comm]
    · next hl =>
      obtain rfl := Except.ok.inj h
      exact .missing hb hl

theorem modifierTexts_of_isClassMember (he : c.entry = some entry)
    (hk : entry.kind ≠ .arrowFunction) (hclass : entry.isClassMember = true) :
    c.modifierTexts = ((entry.tokensBefore entry.nameNode).filter isModifier).mapM Node.text := by
  unfold modifierTexts
  rw [he]
  dsimp only
  rw [if_neg (by simp [hk, hclass])]
  rfl

theorem hasModifiers_of_modifierTexts {texts : List String} (he : c.entry = some entry)
    (hk : entry.kind ≠ .arrowFunction) (hclass : entry.isClassMember = true)
    (h : c.modifierTexts = .ok texts) : entry.HasModifiers texts := by
  rw [modifierTexts_of_isClassMember he hk hclass] at h
  exact mapM_eq_ok_iff.1 h

end Candidate

namespace Node

variable {n : Node}

/-- The arrow function of a candidate is an `IsArrowText` of its node. -/
theorem Makes.isArrowText (h : n.Makes c) (hd : c.descriptor = .ok d)
    (ha : d.arrow c.bodyShape style = .ok a) :
    n.IsArrowText style c.keepsReturnType a.render := by
  have hdesc := Candidate.describes_of_descriptor hd
  obtain ⟨body, hbody, rfl⟩ := map_eq_ok_iff.1 ha
  have hnode := h.node
  refine ⟨d.typeParameters, d.parameters, d.returnType, body, ?_, ?_, ?_, ?_, ?_⟩
  · rw [← hnode, hdesc.typeParameters]
  · rw [← hnode]
    exact Candidate.hasParameters_of_parameterTexts hdesc.parameters
  · rw [← hnode, ← hdesc.returnType]
    rfl
  · exact ⟨d.body, by rw [← hnode, hdesc.body], by rw [← h.bodyShape, hbody]⟩
  · simp [Arrow.render, hdesc.isAsync, h.isAsync]

theorem kind_ne_arrowFunction_of_isMember (h : entry.isMember = true) :
    entry.kind ≠ .arrowFunction := by
  intro hk
  simp [isMember, hk, Kind.isFieldDefinition] at h

/-- The `memberFix` for a member of an object or a class is the one that its standing demands. -/
theorem Makes.demands_member (h : n.Makes c) (hd : c.descriptor = .ok d)
    (ha : d.arrow c.bodyShape style = .ok a) (hkeeps : c.keepsReturnType = false)
    (he : c.entry = some entry) (hk : entry.kind ≠ .arrowFunction)
    (hname : key.text = .ok c.name) :
    n.Demands style (.member entry key) (memberFix entry d a) := by
  have hdesc := Candidate.describes_of_descriptor hd
  have harrow : n.IsArrowText style false a.render := hkeeps ▸ h.isArrowText hd ha
  cases hclass : entry.isClassMember with
  | true =>
    rw [memberFix_of_isClassMember hclass (Descriptor.isAlone_arrow ha), hdesc.name]
    exact .classMember hclass
      (Candidate.hasModifiers_of_modifierTexts he hk hclass hdesc.modifiers) hname harrow
  | false =>
    rw [memberFix_of_not_isClassMember hclass (Descriptor.isAlone_arrow ha), hdesc.name]
    exact .otherMember hclass hname harrow

/-- A candidate `Stands` in some way, and its fix is the one that this standing demands. -/
theorem Makes.exists_stands (h : n.Makes c) (hd : c.descriptor = .ok d)
    (ha : d.arrow c.bodyShape style = .ok a) :
    ∃ s, n.Stands s ∧ n.Demands style s (c.fixWith d a) := by
  have hname := (Candidate.describes_of_descriptor hd).name
  have halone := Descriptor.isAlone_arrow ha
  have harrow := h.isArrowText hd ha
  -- the form of the candidate is its standing, and it fixes what the fix is put together from
  cases h.form with
  | defaultExport kind parent_eq exports shape role name entry isDefaultExport =>
    refine ⟨.defaultExport,
      .defaultExport kind (isExportedByDefault_iff.2 ⟨_, parent_eq, exports⟩), ?_⟩
    rw [Candidate.fixWith_of_defaultExport entry isDefaultExport halone, h.node]
    exact .defaultExport (by simpa [Candidate.keepsReturnType, isDefaultExport] using harrow)
  | plain kind exports member shape name entry isDefaultExport =>
    have unexported : ¬n.IsExportedByDefault := by
      rw [isExportedByDefault_iff]
      rintro ⟨parent, hp, he⟩
      simp [exports parent hp] at he
    rcases kind with ⟨hk, role⟩ | ⟨hk, role⟩
    · refine ⟨.declaration, .declaration hk unexported, ?_⟩
      rw [Candidate.fixWith_of_declaration entry isDefaultExport role halone, h.node, hname]
      exact .declaration name (by simpa [Candidate.keepsReturnType, role] using harrow)
    · refine ⟨.expression, .expression hk unexported fun parent hp => member parent hp hk, ?_⟩
      rw [Candidate.fixWith_of_bare entry isDefaultExport (by simp [role]), h.node]
      have hkeeps : c.keepsReturnType = false := by
        rw [Candidate.keepsReturnType, role, isDefaultExport]
        rfl
      exact .expression (hkeeps ▸ harrow)
  | @memberValue member key kind parent_eq exports isMember isValue shape role key_eq keyKind name
      entry isDefaultExport =>
    have unexported : ¬n.IsExportedByDefault := by
      rw [isExportedByDefault_iff]
      rintro ⟨parent, hp, he⟩
      obtain rfl := Option.some.inj (hp.symm.trans parent_eq)
      simp [exports] at he
    refine ⟨.member member key, .memberValue kind unexported parent_eq isMember key_eq, ?_⟩
    rw [Candidate.fixWith_of_member shape entry]
    have hkeeps := Candidate.keepsReturnType_of_memberRole role isDefaultExport
    exact h.demands_member hd ha hkeeps entry
      (kind_ne_arrowFunction_of_isMember isMember) name
  | @method key kind shape role key_eq keyKind accessor name entry isDefaultExport =>
    refine ⟨.member n key, .method kind key_eq, ?_⟩
    rw [Candidate.fixWith_of_member shape entry]
    have hkeeps := Candidate.keepsReturnType_of_memberRole role isDefaultExport
    exact h.demands_member hd ha hkeeps entry
      (by simp [kind]) name
  | arrowExpression kind body_eq bodyKind shape role name entry isDefaultExport =>
    refine ⟨.arrow, .arrow kind, ?_⟩
    rw [Candidate.fixWith_of_bare entry isDefaultExport (by simp [role]), h.node]
    exact .arrow (by simpa [Candidate.keepsReturnType, role] using harrow)
  | arrowReturn kind body_eq bodyKind returns shape role name entry isDefaultExport =>
    refine ⟨.arrow, .arrow kind, ?_⟩
    rw [Candidate.fixWith_of_bare entry isDefaultExport (by simp [role]), h.node]
    exact .arrow (by simpa [Candidate.keepsReturnType, role] using harrow)

end Node

namespace Rule

variable {rule : Rule} {path : String} {n : Node} {v : Violation}

/-- What is reported of a function is a fix that its standing demands. -/
theorem exists_stands_of_check (hv : rule.check path n = .ok (.violation v)) :
    ∃ s, n.Stands s ∧ n.Demands rule.options.returnStyle s v.fix := by
  obtain ⟨c, d, hmakes, hd, hfix⟩ := exists_of_check_eq_violation hv
  obtain ⟨a, ha, hfix⟩ := map_eq_ok_iff.1 hfix
  obtain ⟨s, hs, hdemands⟩ := hmakes.exists_stands hd ha
  exact ⟨s, hs, hfix ▸ hdemands⟩

/-- What is reported of a function is the fix that its standing `Demands`, and its standing demands
    no other. -/
theorem fix_of_standing (hv : rule.check path n = .ok (.violation v)) :
    (∃ s, n.Stands s ∧ n.Demands rule.options.returnStyle s v.fix) ∧
    ∀ s fix, n.Stands s → n.Demands rule.options.returnStyle s fix → fix = v.fix := by
  obtain ⟨s, hs, hdemands⟩ := exists_stands_of_check hv
  refine ⟨⟨s, hs, hdemands⟩, fun s' fix hs' hdemands' => ?_⟩
  obtain rfl := hs'.unique hs
  exact hdemands'.unique hdemands

end Rule

/-! ## A field of a class -/

/-- The function in `class C { @d f: F = function (a) { return a; }; }`. -/
def Tree.decoratedField : Tree :=
  .node (.ofText .functionExpression true 20 "function (a) \x7b return a; \x7d" [.value]) [
    .node (.ofText (.other "function") false 20 "function" []) [],
    .node (.ofText (.other "formal_parameters") true 29 "(a)" [.parameters]) [
      .node (.ofText (.other "(") false 29 "(" []) [],
      .node (.ofText .identifier true 30 "a" []) [],
      .node (.ofText (.other ")") false 31 ")" []) []],
    .node (.ofText .statementBlock true 33 "\x7b return a; \x7d" [.body]) [
      .node (.ofText (.other "\x7b") false 33 "\x7b" []) [],
      .node (.ofText .returnStatement true 35 "return a;" []) [
        .node (.ofText (.other "return") false 35 "return" []) [],
        .node (.ofText .identifier true 42 "a" []) [],
        .node (.ofText .semicolon false 43 ";" []) []],
      .node (.ofText (.other "\x7d") false 45 "\x7d" []) []]]

/-- The function of `decoratedField` in its place in the class. -/
def Node.decoratedField : Node :=
  ⟨.decoratedField, [
    { label := .ofText .publicFieldDefinition true 10
        "@d f: F = function (a) \x7b return a; \x7d" []
      before := [
        .node (.ofText (.other "=") false 18 "=" []) [],
        .node (.ofText (.other "type_annotation") true 14 ": F" []) [
          .node (.ofText (.other ":") false 14 ":" []) [],
          .node (.ofText (.other "type_identifier") true 16 "F" []) []],
        .node (.ofText .propertyIdentifier true 13 "f" [.name]) [],
        .node (.ofText (.other "decorator") true 10 "@d" []) [
          .node (.ofText (.other "@") false 10 "@" []) [],
          .node (.ofText .identifier true 11 "d" []) []]]
      after := [] },
    { label := .ofText .classBody true 8
        "\x7b @d f: F = function (a) \x7b return a; \x7d; \x7d" [.body]
      before := [
        .node (.ofText (.other "\x7b") false 8 "\x7b" []) []]
      after := [
        .node (.ofText .semicolon false 46 ";" []) [],
        .node (.ofText (.other "\x7d") false 48 "\x7d" []) []] },
    { label := .ofText (.other "class_declaration") true 0
        "class C \x7b @d f: F = function (a) \x7b return a; \x7d; \x7d" []
      before := [
        .node (.ofText (.other "type_identifier") true 6 "C" [.name]) [],
        .node (.ofText (.other "class") false 0 "class" []) []]
      after := [] },
    { label := .ofText (.other "program") true 0
        "class C \x7b @d f: F = function (a) \x7b return a; \x7d; \x7d" []
      before := []
      after := [] }]⟩

theorem Node.isParseOf_decoratedField : Node.decoratedField.whole.IsParseOf
    "class C \x7b @d f: F = function (a) \x7b return a; \x7d; \x7d" := by
  decide

namespace Rule

/-- The fix for `decoratedField` takes the semicolon behind it along, and no other would do. -/
theorem fix_of_standing_decoratedField :
    ∃ v, check ⟨{ classPropertiesAllowed := true }, .default⟩ "a.ts" Node.decoratedField
        = .ok (.violation v) ∧
      v.fix = ⟨⟨10, 47⟩, "@d f = (a) => a;"⟩ ∧
      (∃ s, Node.decoratedField.Stands s ∧ Node.decoratedField.Demands .unchanged s v.fix) ∧
      ∀ s fix, Node.decoratedField.Stands s → Node.decoratedField.Demands .unchanged s fix →
        fix = v.fix :=
  ⟨_, rfl, rfl,
    @fix_of_standing ⟨{ classPropertiesAllowed := true }, .default⟩ "a.ts" _ _ rfl⟩

end Rule

end ArrowLint
