/-
  ArrowLint.Proofs.Fix.Nest

  Functions that return functions. A nest is a function expression whose block returns another
  one, and so on down to a last one that does not. `Nest.after` says what has become of a nest
  after a number of passes: that many of its functions, from the outside in, are arrow functions.

    * `Nest.exists_reports`: in a nest just the functions that are left are reported, each in
      the one around it, and making the fix for the outermost of them leads to the nest after one
      pass more;
    * `Nest.isConvertible_tower`: there are nests of any depth.
-/

import ArrowLint.Proofs.Fix.Layer
import ArrowLint.Proofs.Fix.Outermost

namespace ArrowLint

/-- Function expressions each of which is returned by the one around it, a `layer` for each but the
    innermost. -/
inductive Nest where
  | core (c : Core)
  | layer (l : Layer) (inner : Nest)

namespace Nest

/-- The number of functions in a `Nest`. -/
def depth : Nest → Nat
  | core _ => 1
  | layer _ inner => inner.depth + 1

/-- The outermost function of a nest, with the others in it. -/
def function : Nest → Phrase
  | core c => c.function
  | layer l inner => l.function inner.function

/-- What has become of a nest when as many of its functions are arrow functions, counted from the
    outside. -/
def after (style : ReturnStyle) : Nest → Nat → Phrase
  | core c, 0 => c.function
  | core c, _ + 1 => c.arrow style
  | layer l inner, 0 => l.function inner.function
  | layer l inner, k + 1 => l.arrow style (inner.after style k)

/-- Whether each function of a nest `IsConvertible` under `o`, and can be the body of an arrow
    function as it is. -/
def AreConvertible (o : Options) : Nest → Prop
  | core c => c.IsConvertible o
  | layer l inner => l.IsConvertible o ∧
    (Frame.fillAll l.around inner.function).needsParentheses = false ∧ inner.AreConvertible o

/-- Whether all functions of a nest may become arrow functions, and nothing in them `isBound`. -/
structure IsConvertible (nest : Nest) (o : Options) : Prop where
  functions : nest.AreConvertible o
  unbound : nest.function.IsUnbound

/-- What is said of a nest at `start` after a number of `passes`: the functions that are left are
    reported, each in the one around it, and the fix for the outermost leads to the nest after one
    pass more. -/
structure Reports (nest : Nest) (style : ReturnStyle) (passes start : Nat)
    (violations : List Violation) : Prop where
  length : violations.length = nest.depth - passes
  nested : Fix.AreNested
    ⟨start, start + (Bytes.ofText (nest.after style passes).text).length⟩
    (violations.map (·.fix))
  first : ∀ v ∈ violations.head?, ∃ x y z, (nest.after style passes).text = x ++ y ++ z ∧
    v.fix.span = ⟨start + (Bytes.ofText x).length, start + (Bytes.ofText (x ++ y)).length⟩ ∧
    (nest.after style (passes + 1)).text = x ++ v.fix.text ++ z

@[simp] theorem after_zero (style : ReturnStyle) (nest : Nest) :
    nest.after style 0 = nest.function := by
  cases nest with
  | core c => rfl
  | layer l inner => rfl

/-- What `nest.after style k` is, is a function. -/
theorem isFunction_after (style : ReturnStyle) (nest : Nest) (k : Nat) :
    (nest.after style k).isStatement = true ∧ (nest.after style k).kind.isFunction = true := by
  cases nest with
  | core c =>
    cases k with
    | zero => exact ⟨rfl, rfl⟩
    | succ k => exact ⟨rfl, rfl⟩
  | layer l inner =>
    cases k with
    | zero => exact ⟨rfl, rfl⟩
    | succ k => exact ⟨rfl, rfl⟩

/-- Where the first violation is that of the whole nest and the `rest` lie in it, the nest `Reports`
    as it should before any pass. -/
theorem reports_zero {nest : Nest} {style : ReturnStyle} {start : Nat} {v : Violation}
    {rest : List Violation}
    (hfix : v.fix = ⟨⟨start, start + (Bytes.ofText nest.function.text).length⟩,
      (nest.after style 1).text⟩)
    (hpos : 0 < (Bytes.ofText nest.function.text).length) (hlength : rest.length + 1 = nest.depth)
    (hrest : Fix.AreNested v.fix.span (rest.map (·.fix))) :
    nest.Reports style 0 start (v :: rest) := by
  refine ⟨hlength, ⟨?_, ?_, hrest⟩, ?_⟩
  · rw [after_zero]
    show v.fix.span.IsWithin _
    rw [hfix]
    exact ⟨Int.le_refl _, Int.le_refl _⟩
  · show v.fix.span.IsFilled
    rw [hfix]
    show (start : Int) < start + (Bytes.ofText nest.function.text).length
    omega
  · rintro w hw
    obtain rfl := Option.some.inj hw
    refine ⟨"", nest.function.text, "", by simp, ?_, by rw [hfix]; simp⟩
    rw [hfix, String.empty_append, Bytes.ofText_empty, List.length_nil, Int.natCast_zero,
      Int.add_zero]

/-- What stands around a nest moves what the nest `Reports`, and adds nothing. -/
theorem Reports.enclosed {nest outer : Nest} {style : ReturnStyle} {k start : Nat}
    {vs : List Violation} {x z : String}
    (h : nest.Reports style k (start + (Bytes.ofText x).length) vs)
    (hdepth : outer.depth = nest.depth + 1)
    (htext : (outer.after style (k + 1)).text = x ++ (nest.after style k).text ++ z)
    (hnext : (outer.after style (k + 2)).text = x ++ (nest.after style (k + 1)).text ++ z) :
    outer.Reports style (k + 1) start vs := by
  refine ⟨by rw [h.length]; omega, h.nested.mono ?_, fun v hv => ?_⟩
  · rw [htext]
    simp only [Span.IsWithin, Bytes.ofText_append, List.length_append]
    omega
  · obtain ⟨x', y, z', hx, hspan, hz⟩ := h.first v hv
    refine ⟨x ++ x', y, z' ++ z, ?_, ?_, ?_⟩
    · rw [htext, hx]
      simp only [String.append_assoc]
    · rw [hspan]
      simp only [Bytes.ofText_append, List.length_append, Span.mk.injEq]
      omega
    · rw [hnext, hz]
      simp only [String.append_assoc]

section

variable {rule : Rule} (path : String) {source : Bytes} {start : Nat} {m : Node} {c : Core}
  {l : Layer} {p : Phrase}

/-- The `core` of a nest is reported, with nothing in it. -/
theorem reports_core (hc : c.IsConvertible rule.options) (hu : c.function.IsUnbound)
    (hm : m.IsAt c.function source start) (hopen : m.IsOpen rule.options)
    (hl : m.whole.IsLegible) :
    (core c).Reports rule.options.returnStyle 0 start (rule.reportsIn path m) := by
  obtain ⟨v, hv, hfix⟩ :=
    hm.exists_report? path hc.signature hc.block.1 hu hc.single hopen hl
  obtain ⟨b, -, hb, hreports⟩ := hm.exists_reportsIn hc.signature.isInert_functionFrame rule path
  obtain ⟨seat, hshows⟩ := hb.exists_shows
  -- the block has no function in it, so there is no report but that of the core
  rw [hv, rule.reportsIn_of_isInert path hshows (Phrase.isInert_seated.2 hc.block.2)] at hreports
  rw [hreports]
  refine reports_zero ?_ (hc.signature.length_function_pos c.block) rfl trivial
  rw [hfix, hm.span_eq, ← Phrase.text_asBody]
  exact congrArg (Fix.mk _) (hc.signature.text_arrowFrame _).symm

/-- The arrow function that a core becomes is not reported, nor is anything in it. -/
theorem reportsIn_arrow (hc : c.IsConvertible rule.options)
    (hm : m.IsAt (c.arrow rule.options.returnStyle) source start) :
    rule.reportsIn path m = [] := by
  have hbody := Phrase.asBody_of_block rule.options.returnStyle hc.block hc.expression
  obtain ⟨b, -, hb, hreports⟩ := hm.exists_reportsIn hc.signature.isInert_arrowFrame rule path
  obtain ⟨seat, hshows⟩ := hb.exists_shows
  rw [hreports, rule.reportsIn_of_isInert path hshows (Phrase.isInert_seated.2 hbody.1),
    hm.report?_arrow path hc.signature hbody.2.1 hbody.2.2]
  rfl

/-- A `layer` is reported, and so is all that `inner` reports. -/
theorem reports_layer {inner : Nest} (hc : (layer l inner).AreConvertible rule.options)
    (hu : (l.function inner.function).IsUnbound)
    (hm : m.IsAt (l.function inner.function) source start) (hopen : m.IsOpen rule.options)
    (hl : m.whole.IsLegible)
    (ih : ∀ (n : Node) (start : Nat), n.IsAt inner.function source start →
      n.IsOpen rule.options → n.whole.IsLegible →
      inner.Reports rule.options.returnStyle 0 start (rule.reportsIn path n)) :
    (layer l inner).Reports rule.options.returnStyle 0 start (rule.reportsIn path m) := by
  obtain ⟨hlayer, hneeds, -⟩ := hc
  obtain ⟨hstatement, hfunction⟩ := inner.isFunction_after rule.options.returnStyle 0
  rw [after_zero] at hstatement hfunction
  have hreturns : rule.options.singleReturnOnly = true →
      (Frame.fillAll l.inner inner.function).returned?.isSome = true := by
    intro hon
    rw [hlayer.returned?_inner hstatement hfunction, if_pos (hlayer.single hon)]
    rfl
  obtain ⟨v, hv, hfix⟩ :=
    hm.exists_report? path hlayer.signature hlayer.block.1 hu hreturns hopen hl
  obtain ⟨n, hn, hwhole, hnopen, hreports⟩ :=
    hm.exists_enclosed hlayer.signature.isInert_functionFrame rfl ⟨rfl, rfl⟩ hlayer.passive
      hlayer.holdPlainly (Kind.ne_of_isFunction hfunction rfl) hopen.clear rule path
  have hinner := ih n _ hn hnopen (by rwa [hwhole])
  rw [hreports, hv]
  show (layer l inner).Reports _ 0 start (v :: rule.reportsIn path n)
  have hvfix : v.fix = ⟨⟨start, start + (Bytes.ofText (l.function inner.function).text).length⟩,
      ((layer l inner).after rule.options.returnStyle 1).text⟩ := by
    rw [hfix, hm.span_eq]
    refine congrArg (Fix.mk _) ?_
    rw [← hlayer.text_arrow hstatement hfunction hneeds, after, after_zero]
  refine reports_zero hvfix (hlayer.signature.length_function_pos _) ?_ ?_
  · rw [hinner.length]
    rfl
  · -- the returned function lies in the one that returns it
    refine hinner.nested.mono ?_
    rw [hvfix, after_zero, Layer.function, ← Frame.fillAll_cons, Frame.text_fillAll]
    simp only [Span.IsWithin, Bytes.ofText_append, List.length_append]
    omega

/-- In a nest after `k` passes just the functions that are left are reported, each in the one around
    it. -/
theorem exists_reports (nest : Nest) (hc : nest.AreConvertible rule.options)
    (hu : nest.function.IsUnbound) (k : Nat)
    (hm : m.IsAt (nest.after rule.options.returnStyle k) source start)
    (hopen : m.IsOpen rule.options) (hl : m.whole.IsLegible) :
    nest.Reports rule.options.returnStyle k start (rule.reportsIn path m) := by
  -- on the nest, for every number of passes: they reach the inner functions later
  induction nest generalizing k m start with
  | core c =>
    cases k with
    | zero => exact reports_core path hc hu hm hopen hl
    | succ k =>
      rw [reportsIn_arrow path hc hm]
      exact ⟨(Nat.sub_eq_zero_of_le (Nat.le_add_left 1 k)).symm, trivial, fun v hv => nomatch hv⟩
  | layer l inner ih =>
    have hu' : inner.function.IsUnbound :=
      Phrase.isUnbound_of_fillAll (l.signature.functionFrame :: l.inner) hu
    cases k with
    | zero =>
      refine reports_layer path hc hu hm hopen hl fun n start' hn hnopen hnl => ?_
      exact ih hc.2.2 hu' 0 (by rwa [after_zero]) hnopen hnl
    | succ k =>
      obtain ⟨hlayer, -, hinner⟩ := hc
      obtain ⟨hstatement, hfunction⟩ := inner.isFunction_after rule.options.returnStyle k
      obtain ⟨hexplicit, himplicit⟩ :=
        hlayer.body_innerOfArrow hstatement hfunction rule.options.returnStyle
      obtain ⟨n, hn, hwhole, hnopen, hreports⟩ :=
        hm.exists_enclosed hlayer.signature.isInert_arrowFrame rfl ⟨rfl, rfl⟩
          (hlayer.passive_innerOfArrow _) (hlayer.holdPlainly_innerOfArrow _)
          (Kind.ne_of_isFunction hfunction rfl) hopen.clear rule path
      rw [hreports, hm.report?_arrow path hlayer.signature hexplicit himplicit]
      -- the arrow function is a frame around what is left of the nest
      exact (ih hinner hu' k hn hnopen (by rwa [hwhole])).enclosed rfl
        (Frame.text_fillAll (_ :: _) _) (Frame.text_fillAll (_ :: _) _)

end

end Nest

/-! ## Sites -/

/-- What stands around a function in a source: the text `lead` ahead of the program, and the
    `frames` from the program down to the one that holds the function. -/
structure Site where
  lead : String := ""
  frames : List Frame

namespace Site

/-- The program with the phrase `p` in its place. -/
def place (site : Site) (p : Phrase) : Phrase :=
  (Frame.fillAll site.frames p).seated ⟨site.lead, []⟩

/-- The text ahead of the place in a `Site`. -/
def front (site : Site) : String :=
  site.lead ++ Frame.frontAll site.frames

/-- The text behind the place in a `Site`. -/
def back (site : Site) : String :=
  Frame.backAll site.frames

theorem full_place (site : Site) (p : Phrase) :
    (site.place p).full = site.front ++ p.text ++ site.back := by
  rw [Phrase.full, place, Phrase.text_seated, Frame.text_fillAll, front, back]
  simp only [Phrase.seat_seated, String.append_assoc]

/-- Whether a site holds no other function, and leaves the one in it free to become an arrow
    function as any other expression is. -/
structure IsOpen (site : Site) (o : Options) : Prop where
  passive : ∀ f ∈ site.frames, f.IsPassive o
  plain : Frame.HoldPlainly site.frames

end Site

namespace Nest

/-- The program with what has become of `nest` after a number of `passes`. -/
def stage (nest : Nest) (site : Site) (style : ReturnStyle) (passes : Nat) : Phrase :=
  site.place (nest.after style passes)

end Nest

/-! ## A tower of functions -/

/-- The signature of `function ()`. -/
def Signature.bare : Signature :=
  { opening := [.token "" "function"]
    parameters := .node ⟨" ", [.parameters]⟩ (.other "formal_parameters") true
      [.token "" "(", .token "" ")"] ""
    heading := [
      .node ⟨"", [.parameters]⟩ (.other "formal_parameters") true
        [.token "" "(", .token "" ")"] "",
      .token " " "=>"] }

/-- The layer `function () { return …; }`. -/
def Layer.bare : Layer :=
  { signature := .bare
    block := {
      kind := .statementBlock, before := [.token "" "\x7b"], hole := ⟨" ", []⟩
      after := [.token " " "\x7d"] }
    giving := {
      kind := .returnStatement, before := [.token "" "return"], hole := ⟨" ", []⟩
      after := [.token "" ";"] } }

/-- The core `function () {}`. -/
def Core.bare : Core :=
  { signature := .bare
    block := .node {} .statementBlock true [.token "" "\x7b", .token "" "\x7d"] "" }

/-- The place in `const f = …;`. -/
def Site.constant : Site :=
  { frames := [
      { kind := .other "program" },
      { kind := .other "lexical_declaration", before := [.token "" "const"], hole := ⟨" ", []⟩
        after := [.token "" ";"] },
      { kind := .other "variable_declarator"
        before := [.node ⟨"", [.name]⟩ .identifier true [] "f", .token " " "="]
        hole := ⟨" ", [.value]⟩ }] }

/-- A nest of `n` layers that are bare, around a core that does nothing. -/
def Nest.tower : Nat → Nest
  | 0 => .core .bare
  | n + 1 => .layer .bare (tower n)

theorem Signature.isSound_bare : Signature.bare.IsSound := by decide

theorem Site.isOpen_constant : Site.constant.IsOpen {} :=
  ⟨by decide, by decide⟩

theorem Layer.isConvertible_bare : Layer.bare.IsConvertible {} where
  signature := Signature.isSound_bare
  block := by decide
  giving := by decide
  keyword := by decide
  within := by decide
  statement := by decide
  around := by decide
  expression := by decide
  plain := by decide
  single := by decide

theorem Core.isConvertible_bare : Core.bare.IsConvertible {} where
  signature := Signature.isSound_bare
  block := by decide
  expression := by decide
  single := by decide

namespace Nest

theorem depth_tower (n : Nat) : (tower n).depth = n + 1 := by
  induction n with
  | zero => rfl
  | succ n ih => rw [tower, depth, ih]

/-- A function in a tower starts with its keyword, so that it `needsParentheses` nowhere. -/
theorem needsParentheses_tower (n : Nat) : (tower n).function.needsParentheses = false := by
  have hfront : ∀ b, (Signature.bare.functionFrame.fill b).needsParentheses = false := by
    intro b
    have hopen : Signature.bare.functionFrame.front = "function () " := by decide
    rw [Phrase.needsParentheses, Frame.text_fill, hopen, String.append_assoc, Node.needsParentheses,
      String.toList_append]
    rfl
  cases n with
  | zero => exact hfront _
  | succ n => exact hfront _

theorem areConvertible_tower (n : Nat) : (tower n).AreConvertible {} := by
  induction n with
  | zero => exact Core.isConvertible_bare
  | succ n ih => exact ⟨Layer.isConvertible_bare, needsParentheses_tower n, ih⟩

theorem isUnbound_tower (n : Nat) : (tower n).function.IsUnbound := by
  induction n with
  | zero => decide
  | succ n ih =>
    refine Phrase.isUnbound_fill rfl (by decide) (Phrase.isUnbound_fill rfl (by decide) ?_)
    exact Phrase.isUnbound_fill rfl (by decide) ih

/-- A `tower` of any height `IsConvertible`. -/
theorem isConvertible_tower (n : Nat) : (tower n).IsConvertible {} :=
  ⟨areConvertible_tower n, isUnbound_tower n⟩

end Nest

namespace Linter

/-- Whether the parser of `linter` gives the tree of the phrase `p` for its text. -/
def Reads (linter : Linter) (path : String) (p : Phrase) : Prop :=
  linter.treeOf p.full path = p.parse

/-- A linter that reads the texts on the way of `Nest.tower n` in a declaration. -/
def tower (n : Nat) : Linter :=
  { rule := ⟨{}, .default⟩
    parser := .ofPhrases
      ((List.range (n + 2)).map ((Nest.tower n).stage .constant .unchanged)) }

theorem reads_tower {n : Nat}
    (h : (((List.range (n + 2)).map ((Nest.tower n).stage .constant .unchanged)).map
      Phrase.full).Nodup) :
    ∀ k ≤ (Nest.tower n).depth,
      (tower n).Reads "f.ts" ((Nest.tower n).stage .constant .unchanged k) := by
  intro k hk
  refine Parser.ofPhrases_full h (List.mem_map_of_mem (List.mem_range.2 ?_))
    (Grammar.ofPath "f.ts")
  rw [Nest.depth_tower] at hk
  omega

end Linter

end ArrowLint
