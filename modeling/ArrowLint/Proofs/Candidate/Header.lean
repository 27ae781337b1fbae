/-
  ArrowLint.Proofs.Candidate.Header

  What the header of a function tells. The words ahead of its parameters say whether a function is
  asynchronous, the star ahead of them or of the name of a method that it is a generator, and `get`
  or `set` ahead of the name that the method is an accessor, which is no candidate. What stands
  ahead of the name of a class member is taken over as its modifiers. All of these are looked for
  by offsets. In every tree whose siblings are ordered and disjoint the search nevertheless goes by
  places: none of these tokens is missed but an empty one, and none is found that stands elsewhere
  (`Node.tokens_by_offset`).
-/

import ArrowLint.Proofs.Fix.Replacement
import ArrowLint.Proofs.Syntax.Leading
import ArrowLint.Proofs.Syntax.Phrase

namespace ArrowLint

namespace Node

variable {n name entry : Node} {c : Candidate} {before after : List Node}

/-! ## Words ahead of the parameters -/

/-- The node up to which the children of a function count as its header: the list of parameters, or
    a single bare one. -/
def parametersNode (n : Node) : Option Node :=
  n.field .parameters <|> n.field .parameter

theorem mem_children_of_parametersNode {s : Node} (h : n.parametersNode = some s) :
    s ∈ n.children := by
  rw [parametersNode, Option.orElse_eq_orElse, Option.orElse_eq_or, Option.or_eq_some_iff] at h
  rcases h with h | ⟨-, h⟩
  · exact field_mem_children h
  · exact field_mem_children h

theorem isAsync_iff :
    n.isAsync = true ↔ ∃ t ∈ n.tokensBefore n.parametersNode, t.kind = .asyncKeyword := by
  simp only [isAsync, List.any_eq_true, beq_iff_eq]
  rfl

theorem isGenerator_iff (hk : n.kind.isGenerator = false) :
    n.isGenerator = true ↔ ∃ t ∈ n.tokensBefore n.parametersNode, t.kind = .star := by
  simp only [isGenerator, hk, Bool.false_or, List.any_eq_true, beq_iff_eq]
  rfl

/-- A node whose kind `isGenerator` makes no candidate. -/
theorem Makes.kind_isGenerator (h : n.Makes c) : n.kind.isGenerator = false := by
  cases h.form with
  | defaultExport kind =>
    rcases kind with kind | kind
    · rw [kind]; rfl
    · rw [kind]; rfl
  | plain kind =>
    rcases kind with ⟨kind, -⟩ | ⟨kind, -⟩
    · rw [kind]; rfl
    · rw [kind]; rfl
  | memberValue kind => rw [kind]; rfl
  | method kind => rw [kind]; rfl
  | arrowExpression kind => rw [kind]; rfl
  | arrowReturn kind => rw [kind]; rfl

/-- A candidate `isGenerator` by a star ahead of its parameters, or of its name if it is a
    method. -/
theorem Makes.isGenerator_iff (h : n.Makes c) : c.isGenerator = true ↔
    (∃ t ∈ n.tokensBefore n.parametersNode, t.kind = .star) ∨
      n.kind = .methodDefinition ∧ ∃ t ∈ n.tokensBefore (n.field .name), t.kind = .star := by
  have hheader := Node.isGenerator_iff h.kind_isGenerator
  cases h.form with
  | method kind _ _ key_eq _ _ _ _ _ isGenerator =>
    -- a method is asked twice, ahead of its name and ahead of its parameters
    rw [isGenerator, hheader, key_eq]
    simp only [kind, true_and]
    exact or_comm
  | defaultExport kind _ _ _ _ _ _ _ isGenerator =>
    rw [isGenerator, hheader]
    rcases kind with kind | kind
    · simp [kind]
    · simp [kind]
  | plain kind _ _ _ _ _ _ isGenerator =>
    rw [isGenerator, hheader]
    rcases kind with ⟨kind, -⟩ | ⟨kind, -⟩
    · simp [kind]
    · simp [kind]
  | memberValue kind _ _ _ _ _ _ _ _ _ _ _ isGenerator => simp [isGenerator, hheader, kind]
  | arrowExpression kind _ _ _ _ _ _ _ isGenerator => simp [isGenerator, hheader, kind]
  | arrowReturn kind _ _ _ _ _ _ _ _ isGenerator => simp [isGenerator, hheader, kind]

/-! ## Accessors -/

/-- A method with a plain name and a body is no candidate just when `get` or `set` stands ahead of
    its `name`. -/
theorem candidate?_of_method (hk : n.kind = .methodDefinition) (hn : n.label.isNamed = true)
    (hname : n.field .name = some name) (hplain : name.kind.isPropertyName = true)
    (hb : (n.field .body).isSome = true) : n.candidate? = .ok none ↔
      ∃ t ∈ n.tokensBefore (some name), t.kind = .getKeyword ∨ t.kind = .setKeyword := by
  have hleading : (((n.tokensBefore (some name)).map (·.kind)).contains .getKeyword ||
      ((n.tokensBefore (some name)).map (·.kind)).contains .setKeyword) = true ↔
      ∃ t ∈ n.tokensBefore (some name), t.kind = .getKeyword ∨ t.kind = .setKeyword := by
    simp only [Bool.or_eq_true, List.contains_iff_mem, List.mem_map, and_or_left, exists_or]
  obtain ⟨body, hb⟩ := Option.isSome_iff_exists.1 hb
  simp only [candidate?, hn, hk, methodCandidate?, hname, hplain, hb]
  rw [if_neg (by simp), if_neg (by simp), ← hleading]
  split
  · next hacc => exact iff_of_true rfl hacc
  · next hacc =>
    refine iff_of_false (fun h => ?_) hacc
    -- what is read from here on makes up a candidate
    obtain ⟨text, -, h⟩ := bind_eq_ok_iff.1 h
    obtain ⟨c, -, h⟩ := bind_eq_ok_iff.1 h
    cases h

/-! ## Modifiers -/

theorem Makes.kind_entry_ne_arrowFunction (h : n.Makes c) (he : c.entry = some entry) :
    entry.kind ≠ .arrowFunction := by
  cases h.form with
  | memberValue _ _ _ isMember _ _ _ _ _ _ entry_eq =>
    obtain rfl := Option.some.inj (entry_eq.symm.trans he)
    exact kind_ne_arrowFunction_of_isMember isMember
  | method kind _ _ _ _ _ _ entry_eq =>
    obtain rfl := Option.some.inj (entry_eq.symm.trans he)
    simp [kind]
  | defaultExport _ _ _ _ _ _ entry_eq => simp [entry_eq] at he
  | plain _ _ _ _ _ entry_eq => simp [entry_eq] at he
  | arrowExpression _ _ _ _ _ _ entry_eq => simp [entry_eq] at he
  | arrowReturn _ _ _ _ _ _ _ entry_eq => simp [entry_eq] at he

/-- The `modifierTexts` of a class member are the texts of the modifiers ahead of its `name`; those
    `missed` have width zero. -/
theorem Makes.exists_modifiers (h : n.Makes c) (hs : n.whole.IsSequential)
    (he : c.entry = some entry) (hclass : entry.isClassMember = true)
    (hname : entry.nameNode = some name) (hc : entry.children = before ++ name :: after) :
    ∃ taken missed, before.filter Candidate.isModifier = taken ++ missed ∧
      (∀ t ∈ missed, t.width = 0) ∧ c.modifierTexts = taken.mapM Node.text := by
  rw [← h.whole_entry he] at hs
  obtain ⟨missed, hbefore, hmissed⟩ := exists_missed hs hc
  refine ⟨(entry.tokensBefore (some name)).filter Candidate.isModifier,
    missed.filter Candidate.isModifier, ?_, fun t ht => hmissed t (List.mem_filter.1 ht).1, ?_⟩
  · rw [← List.filter_append, ← hbefore]
  · rw [Candidate.modifierTexts_of_isClassMember he (h.kind_entry_ne_arrowFunction he) hclass,
      hname]

/-! ## Headers -/

/-- In a tree that `IsSequential`, `tokensBefore` a child are the first of the children ahead of it,
    and those left out are empty; the child and what stands behind it are not among them. So whether
    a method is an accessor, whether a function is asynchronous or a generator and which modifiers a
    class member has depends on what stands ahead of the name or of the parameters, empty tokens
    apart, and on nothing else. -/
theorem tokens_by_offset (n : Node) (h : n.whole.IsSequential) :
    (∀ before stop after, n.children = before ++ stop :: after →
      (∃ missed, before = n.tokensBefore (some stop) ++ missed ∧ ∀ t ∈ missed, t.width = 0) ∧
      ∀ t ∈ stop :: after, t ∉ n.tokensBefore (some stop)) ∧
    (∀ name, n.kind = .methodDefinition → n.label.isNamed = true → n.field .name = some name →
      name.kind.isPropertyName = true → (n.field .body).isSome = true →
      Detects (n.HasBefore (some name)) (fun k => k = .getKeyword ∨ k = .setKeyword)
        (n.candidate? = .ok none)) ∧
    ∀ c, n.candidate? = .ok (some c) →
      Detects (n.HasBefore n.parametersNode) (· = .asyncKeyword) (c.isAsync = true) ∧
      (∀ name t, n.field .name = some name → n.HasBefore n.parametersNode name →
        n.HasBefore (some name) t → t.kind = .asyncKeyword → 0 < t.width → c.isAsync = true) ∧
      Detects
        (fun t => n.HasBefore n.parametersNode t ∨
          n.kind = .methodDefinition ∧ n.HasBefore (n.field .name) t)
        (· = .star) (c.isGenerator = true) ∧
      ∀ entry before name after, c.entry = some entry → entry.isClassMember = true →
        entry.nameNode = some name → entry.children = before ++ name :: after →
        ∃ taken missed, before.filter Candidate.isModifier = taken ++ missed ∧
          (∀ t ∈ missed, t.width = 0) ∧ c.modifierTexts = taken.mapM Node.text := by
  refine ⟨fun before stop after hc => ⟨exists_missed h hc, fun t => not_mem_tokensBefore hc⟩,
    fun name hk hn hname hplain hb => ?_, fun c hcand => ?_⟩
  · refine (detects_tokensBefore h ?_ _).congr (candidate?_of_method hk hn hname hplain hb)
    rintro s ⟨⟩
    exact field_mem_children hname
  · have hmakes := makes_of_candidate? hcand
    -- the two places where words and stars are looked for
    have header := detects_tokensBefore h fun _ => mem_children_of_parametersNode (n := n)
    have leading := detects_tokensBefore h fun _ => field_mem_children (n := n) (f := .name)
    have hasync : Detects (n.HasBefore n.parametersNode) (· = .asyncKeyword) (c.isAsync = true) :=
      (header (· = .asyncKeyword)).congr (by rw [hmakes.isAsync]; exact isAsync_iff)
    refine ⟨hasync, fun name t _ hparameters ht hk hw => ?_, ?_,
      fun entry before name after he hclass hname hc =>
        hmakes.exists_modifiers h he hclass hname hc⟩
    · exact hasync.of_token t (ht.trans hparameters) hk hw
    · exact ((header (· = .star)).or ((leading (· = .star)).and _)).congr hmakes.isGenerator_iff

end Node

/-! ## A method with an empty token -/

namespace Phrase

/-- The method in `class A{static async*m(){}}`, where the parser has found an empty `get` ahead of
    the name. -/
def emptyAccessor : Phrase :=
  .node {} .methodDefinition true [
    token "" "static",
    token " " "async",
    token "" "*",
    .node {} .getKeyword false [] "",
    .node ⟨"", [.name]⟩ .propertyIdentifier true [] "m",
    .node ⟨"", [.parameters]⟩ (.other "formal_parameters") true [
      token "" "(", token "" ")"] "",
    .node ⟨"", [.body]⟩ .statementBlock true [
      token "" "\x7b", token "" "\x7d"] ""] ""

/-- The program `class A{static async*m(){}}`. -/
def classOfEmptyAccessor : Phrase :=
  .node {} (.other "program") true [
    .node {} (.other "class_declaration") true [
      token "" "class",
      .node ⟨" ", [.name]⟩ (.other "type_identifier") true [] "A",
      .node ⟨"", [.body]⟩ .classBody true [
        token "" "\x7b", emptyAccessor, token "" "\x7d"] ""] ""] ""

end Phrase

namespace Node

/-- The empty token `get` is passed over, so that the method is no accessor, but nothing else ahead
    of the name is. -/
theorem tokens_by_offset_emptyAccessor :
    ∃ n ∈ (root Phrase.classOfEmptyAccessor.parse).walk,
      ∃ c static async star accessor name parameters after,
        n.whole.IsSequential ∧ n.candidate? = .ok (some c) ∧
        n.children = [static, async, star, accessor] ++ name :: parameters :: after ∧
        n.field .name = some name ∧ accessor.kind = .getKeyword ∧ accessor.width = 0 ∧
        c.isAsync = true ∧ c.isGenerator = true ∧
        ∃ taken : List Node, c.modifierTexts = taken.mapM Node.text ∧ static ∈ taken := by
  obtain ⟨n, c, static, async, star, accessor, name, parameters, after, hfind, hcand, hentry,
      hclass, hname, hnameNode, hparameters, hc, hasync, hstar, haccessor, hempty, hmodifier,
      hwidths⟩ :
      ∃ n c static async star accessor name parameters after,
        (root Phrase.classOfEmptyAccessor.parse).walk.find? (·.kind == .methodDefinition) = some n ∧
        n.candidate? = .ok (some c) ∧ c.entry = some n ∧ n.isClassMember = true ∧
        n.field .name = some name ∧ n.nameNode = some name ∧ n.parametersNode = some parameters ∧
        n.children = [static, async, star, accessor] ++ name :: parameters :: after ∧
        async.kind = .asyncKeyword ∧ star.kind = .star ∧
        accessor.kind = .getKeyword ∧ accessor.width = 0 ∧ Candidate.isModifier static = true ∧
        [static, async, star].map width = [6, 5, 1] :=
    ⟨_, _, _, _, _, _, _, _, _,
      rfl, rfl, rfl, rfl, rfl, rfl, rfl, rfl, rfl, rfl, rfl, rfl, rfl, rfl⟩
  have hmem := List.mem_of_find?_eq_some hfind
  have hs : n.whole.IsSequential := by
    rw [whole_of_mem_walk hmem]
    exact Phrase.classOfEmptyAccessor.isParseOf_parse.isSequential
  simp only [List.map_cons, List.map_nil, List.cons.injEq, and_true] at hwidths
  obtain ⟨hstatic, hwasync, hwstar⟩ := hwidths
  obtain ⟨-, -, hfound⟩ := tokens_by_offset n hs
  obtain ⟨isAsync, -, isGenerator, modifiers⟩ := hfound c hcand
  have hbefore : ∀ t ∈ [static, async, star, accessor, name], n.HasBefore n.parametersNode t := by
    rw [hparameters]
    exact fun t ht => ⟨_, after, hc, ht⟩
  obtain ⟨taken, missed, hsplit, hmissed, htexts⟩ :=
    modifiers n _ name _ hentry hclass hnameNode hc
  refine ⟨n, hmem, c, static, async, star, accessor, name, parameters, after, hs, hcand, hc, hname,
    haccessor, hempty, isAsync.of_token async (hbefore _ (by simp)) hasync (by omega),
    isGenerator.of_token star (.inl (hbefore _ (by simp))) hstar (by omega), taken, htexts, ?_⟩
  have htaken : static ∈ taken ++ missed := by
    rw [← hsplit]
    exact List.mem_filter.2 ⟨List.mem_cons_self, hmodifier⟩
  refine (List.mem_append.1 htaken).resolve_right fun h => ?_
  have hzero := hmissed static h
  omega

end Node

end ArrowLint
