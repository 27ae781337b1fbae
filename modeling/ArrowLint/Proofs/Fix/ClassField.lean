/-
  ArrowLint.Proofs.Fix.ClassField

  What becomes of a field of a class. If a function expression is its value, the fix goes over the
  whole field and writes it anew, so what it does not take over is lost. It takes over what stands
  ahead of the name, and the name (`Node.TakesOver`); of what stands between the name and the
  function nothing is left, and a type is lost there (`Rule.type_of_field_lost`).

  `Rule.fix_of_field` says what the text is made of, for fields of every make.
-/

import ArrowLint.Proofs.Fix.Replacement
import ArrowLint.Proofs.Syntax.Leading

namespace ArrowLint

open Node

/-- Each of several `texts` stands in what they are joined to. -/
theorem infix_intercalate {separator s : String} {texts : List String} (h : s ∈ texts) :
    s.toList <:+: (separator.intercalate texts).toList := by
  induction texts with
  | nil => cases h
  | cons t texts ih =>
    cases texts with
    | nil => simp [List.mem_singleton.1 h]
    | cons u texts =>
      rw [String.intercalate_cons_cons, String.toList_append, String.toList_append]
      rcases List.mem_cons.1 h with rfl | h
      · rw [List.append_assoc]
        exact (List.prefix_append _ _).isInfix
      · exact (ih h).trans (List.suffix_append _ _).isInfix

/-- Whether a child of a member is taken over into the field that `entry` becomes. -/
inductive Node.TakesOver (entry : Node) : Node → Prop
  | name {key : Node} (key_eq : entry.memberKey = some key) : TakesOver entry key
  | modifier {t : Node} (ahead : t ∈ entry.tokensBefore entry.nameNode)
      (notAsync : t.kind ≠ .asyncKeyword) (notStar : t.kind ≠ .star)
      (noRemark : t.kind.isComment = false) : TakesOver entry t

namespace Node

variable {entry name t : Node} {before after : List Node} {source : String}

/-- Of what stands `before` the name, all that is not empty and neither a comment nor `async` nor a
    star is taken over. -/
theorem takesOver_of_ahead (h : entry.whole.IsParseOf source) (hname : entry.nameNode = some name)
    (hc : entry.children = before ++ name :: after) (ht : t ∈ before) (hw : t.start < t.stop)
    (notAsync : t.kind ≠ .asyncKeyword) (notStar : t.kind ≠ .star)
    (noRemark : t.kind.isComment = false) : entry.TakesOver t :=
  have ahead : t ∈ entry.tokensBefore (some name) :=
    mem_tokensBefore_of_hasBefore h.isSequential ⟨before, after, hc, ht⟩ (Nat.sub_pos_of_lt hw)
  .modifier (by rwa [hname]) notAsync notStar noRemark

/-- What `entry` `TakesOver` stands in the text of the field. -/
theorem TakesOver.infix {key : Node} {modifiers : List String} {text arrow : String}
    (h : entry.TakesOver t) (hkey : entry.memberKey = some key) (htext : key.text = .ok text)
    (hm : entry.HasModifiers modifiers) : ∃ s, t.text = .ok s ∧
      s.toList <:+: (" ".intercalate (modifiers ++ [text]) ++ " = " ++ arrow ++ ";").toList := by
  obtain ⟨s, hs, hmem⟩ : ∃ s, t.text = .ok s ∧ s ∈ modifiers ++ [text] := by
    cases h with
    | name key_eq =>
      obtain rfl := Option.some.inj (key_eq.symm.trans hkey)
      exact ⟨text, htext, by simp⟩
    | modifier ahead notAsync notStar noRemark =>
      have hfilter : t ∈ (entry.tokensBefore entry.nameNode).filter fun t =>
          t.kind != .asyncKeyword && t.kind != .star && !t.kind.isComment :=
        List.mem_filter.2 ⟨ahead, by simp [notAsync, notStar, noRemark]⟩
      -- the texts of the modifiers are those of the tokens, one by one
      have hread := List.mem_map_of_mem (f := Node.text) hfilter
      rw [hm] at hread
      obtain ⟨s, hs, hst⟩ := List.mem_map.1 hread
      exact ⟨s, hst.symm, List.mem_append_left _ hs⟩
  refine ⟨s, hs, ?_⟩
  simp only [String.toList_append, List.append_assoc]
  exact (infix_intercalate hmem).trans (List.prefix_append _ _).isInfix

end Node

namespace Rule

variable {rule : Rule} {path : String} {n field : Node} {v : Violation}

/-- A function that is no function expression is replaced alone, also where it is the value of a
    `field`. -/
theorem span_of_value (hp : n.parent = some field) (hf : field.kind.isFieldDefinition = true)
    (hk : n.kind ≠ .functionExpression) (hv : rule.check path n = .ok (.violation v)) :
    v.fix.span = ⟨n.start, n.stop⟩ := by
  obtain ⟨s, hs, hdemands⟩ := exists_stands_of_check hv
  generalize v.fix = fix at hdemands
  cases hdemands with
  | declaration | defaultExport | expression | arrow => rfl
  | classMember inClass =>
    cases hs with
    | method =>
      -- the field would have to be the body of a class
      rw [isClassMember, hp] at inClass
      simp [beq_iff_eq.1 inClass, Kind.isFieldDefinition] at hf
    | memberValue kind => exact absurd kind hk
  | otherMember =>
    cases hs with
    | method => rfl
    | memberValue kind => exact absurd kind hk

/-- A function expression under a `field` is reported only as its value, and then the fix goes over
    the whole field and writes it anew. -/
theorem fix_of_fieldValue (hp : n.parent = some field)
    (hf : field.kind.isFieldDefinition = true) (hclass : field.isClassMember = true)
    (hk : n.kind = .functionExpression) (hv : rule.check path n = .ok (.violation v)) :
    ∃ key modifiers name arrow, field.memberKey = some key ∧ key.text = .ok name ∧
      field.HasModifiers modifiers ∧ n.IsArrowText rule.options.returnStyle false arrow ∧
      v.fix = ⟨⟨field.start, field.stopWithSemicolon⟩,
        " ".intercalate (modifiers ++ [name]) ++ " = " ++ arrow ++ ";"⟩ := by
  obtain ⟨s, hs, hdemands⟩ := exists_stands_of_check hv
  rcases hs.of_functionExpression hk with ⟨exported, -⟩ | ⟨-, ⟨unheld, -⟩ | held⟩
  · -- a field exports nothing
    obtain ⟨parent, hparent, hexport, -⟩ := exported
    obtain rfl := Option.some.inj (hparent.symm.trans hp)
    simp [hexport, Kind.isFieldDefinition] at hf
  · have hmember := unheld field hp
    simp [isMember, hf] at hmember
  · obtain ⟨entry, key, hentry, -, hkey, rfl⟩ := held
    obtain rfl := Option.some.inj (hentry.symm.trans hp)
    generalize v.fix = fix at hdemands
    cases hdemands with
    | classMember _ modifiers_eq name_eq arrow_eq =>
      exact ⟨key, _, _, _, hkey, name_eq, modifiers_eq, arrow_eq, rfl⟩
    | otherMember outside => simp [hclass] at outside

/-- Where the value of a field of a class is reported, either the function is no function expression
    and is replaced alone, or the whole `field` is written anew: its modifiers, its key, and the
    arrow function. So the text of every node that the field `TakesOver` stands in the new text. In
    a parse this is the name and what stands ahead of it, comments, `async`, a star and empty nodes
    apart, and nothing of what stands behind the name is among it. -/
theorem fix_of_field (hp : n.parent = some field) (hf : field.kind.isFieldDefinition = true)
    (hclass : field.isClassMember = true) (hv : rule.check path n = .ok (.violation v)) :
    (n.kind ≠ .functionExpression → v.fix.span = ⟨n.start, n.stop⟩) ∧
    (n.kind = .functionExpression →
      (∃ key modifiers name arrow, field.memberKey = some key ∧ key.text = .ok name ∧
        field.HasModifiers modifiers ∧ n.IsArrowText rule.options.returnStyle false arrow ∧
        v.fix = ⟨⟨field.start, field.stopWithSemicolon⟩,
          " ".intercalate (modifiers ++ [name]) ++ " = " ++ arrow ++ ";"⟩) ∧
      ∀ t, field.TakesOver t → ∃ s, t.text = .ok s ∧ s.toList <:+: v.fix.text.toList) ∧
    ∀ source name before after, n.whole.IsParseOf source → field.nameNode = some name →
      field.children = before ++ name :: after →
      (∀ t ∈ before, t.start < t.stop → t.kind ≠ .asyncKeyword → t.kind ≠ .star →
        t.kind.isComment = false → field.TakesOver t) ∧
      ∀ t ∈ after, t ∉ field.tokensBefore field.nameNode := by
  refine ⟨fun hk => span_of_value hp hf hk hv, fun hk => ?_,
    fun source name before after hparse hname hc => ?_⟩
  · obtain ⟨key, modifiers, name, arrow, hkey, htext, hm, ha, hfix⟩ :=
      fix_of_fieldValue hp hf hclass hk hv
    refine ⟨⟨key, modifiers, name, arrow, hkey, htext, hm, ha, hfix⟩, fun t ht => ?_⟩
    rw [hfix]
    exact ht.infix hkey htext hm
  · rw [← whole_of_parent hp] at hparse
    refine ⟨fun t ht hw hasync hstar hremark =>
      takesOver_of_ahead hparse hname hc ht hw hasync hstar hremark, fun t ht => ?_⟩
    rw [hname]
    exact not_mem_tokensBefore_of_behind hparse hc ht

/-- The decorator and the name of `decoratedField` stand in the new text. -/
theorem fix_of_field_decorated :
    Node.decoratedField.whole.IsParseOf
      "class C \x7b @d f: F = function (a) \x7b return a; \x7d; \x7d" ∧
    ∃ field decorator v, Node.decoratedField.parent = some field ∧
      field.kind.isFieldDefinition = true ∧ field.isClassMember = true ∧
      check ⟨{ classPropertiesAllowed := true }, .default⟩ "a.ts" Node.decoratedField
        = .ok (.violation v) ∧
      decorator ∈ field.children ∧ decorator.text = .ok "@d" ∧
      "@d".toList <:+: v.fix.text.toList := by
  obtain ⟨-, hvalue, hparse⟩ := @fix_of_field ⟨{ classPropertiesAllowed := true }, .default⟩ "a.ts"
    Node.decoratedField _ _ rfl rfl rfl rfl
  have ahead := (hparse _ _ [_] _ Node.isParseOf_decoratedField rfl rfl).1 _ List.mem_cons_self
    (by decide) (by decide) (by decide) rfl
  obtain ⟨s, hs, hin⟩ := (hvalue rfl).2 _ ahead
  obtain rfl : s = "@d" := (Except.ok.inj hs).symm
  exact ⟨Node.isParseOf_decoratedField, _, _, _, rfl, rfl, rfl, rfl, List.mem_cons_self, rfl, hin⟩

/-- The type annotation of a field is lost, since it stands behind the name. -/
theorem type_of_field_lost :
    ¬ ∀ (rule : Rule) (path : String) (n field t : Node) (v : Violation) (s : String),
      n.parent = some field → field.kind.isFieldDefinition = true → field.isClassMember = true →
      n.isParentField .value = true → n.kind = .functionExpression →
      rule.check path n = .ok (.violation v) →
      t ∈ field.children → t.label.isNamed = true → t.kind.isComment = false → t ≠ n →
      t.text = .ok s → s.toList <:+: v.fix.text.toList := by
  intro h
  obtain ⟨v, hv, hfix⟩ : ∃ v, check ⟨{ classPropertiesAllowed := true }, .default⟩ "a.ts"
      Node.decoratedField = .ok (.violation v) ∧ v.fix.text = "@d f = (a) => a;" := ⟨_, rfl, rfl⟩
  obtain ⟨field, hp, hf, hclass, t, hmem, hnamed, hremark, hkind, htext⟩ :
      ∃ field, Node.decoratedField.parent = some field ∧ field.kind.isFieldDefinition = true ∧
        field.isClassMember = true ∧ ∃ t ∈ field.children, t.label.isNamed = true ∧
          t.kind.isComment = false ∧ t.kind ≠ .functionExpression ∧ t.text = .ok ": F" :=
    ⟨_, rfl, rfl, rfl, _, List.mem_cons_of_mem _ (List.mem_cons_of_mem _ List.mem_cons_self),
      rfl, rfl, by decide, rfl⟩
  have hlost := h _ "a.ts" Node.decoratedField field t v ": F" hp hf hclass rfl rfl hv hmem hnamed
    hremark (fun heq => hkind (congrArg Node.kind heq)) htext
  -- there is no colon in the new text
  have hcolon : ':' ∈ ": F".toList := by decide
  rw [hfix] at hlost
  exact absurd (hlost.subset hcolon) (by decide)

end Rule

end ArrowLint
