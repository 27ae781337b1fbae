/-
  ArrowLint.Proofs.Candidate.Words

  Which words the rule reads. Classifying a node and judging the candidate go by kinds, fields and
  places, and read texts only to compare them with a few words; of any other text they see that
  it is another one and no more (`Text.blot`). So blotting out the texts of a tree changes no
  candidate but in its name and no verdict at all (`Node.candidate?_blot`,
  `Candidate.verdict_blot`), and the rule reports the same of nodes that look the same with
  their texts blotted out (`Rule.reports_of_isLike`).
-/

import ArrowLint.Proofs.Candidate.Finding
import ArrowLint.Proofs.Syntax.Respelling

namespace ArrowLint

/-! ## Texts with all but the words that are read blotted out -/

namespace Text

/-- The words that the rule compares a text with. -/
def readWords : List String :=
  ["", "arguments", "prototype", "constructor"]

/-- What the rule sees of a text `s`: one of `readWords`, or that it spells out `new.target`, or
    that it does neither. -/
def blot (s : String) : String :=
  if s ∈ readWords then s
  else if spellsOut s "new.target" then "new.target"
  else "_"

theorem blot_eq_iff {s word : String} (hw : word ∈ readWords) : blot s = word ↔ s = word := by
  unfold blot
  split
  · exact Iff.rfl
  · next hs =>
    -- neither the text nor what stands for it is one of the words
    have hne : s ≠ word := fun h => hs (h ▸ hw)
    have htarget : "new.target" ≠ word := by
      rintro rfl
      exact absurd hw (by decide)
    have hother : "_" ≠ word := by
      rintro rfl
      exact absurd hw (by decide)
    split
    · exact iff_of_false htarget hne
    · exact iff_of_false hother hne

theorem blot_beq {s word : String} (hw : word ∈ readWords) : (blot s == word) = (s == word) := by
  rw [Bool.eq_iff_iff, beq_iff_eq, beq_iff_eq, blot_eq_iff hw]

theorem spellsOut_blot (s : String) :
    spellsOut (blot s) "new.target" = spellsOut s "new.target" := by
  unfold blot
  split
  · rfl
  · split
    · next h =>
      rw [h]
      decide
    · next h =>
      rw [Bool.eq_false_iff.2 h]
      decide

end Text

open Text

namespace Node

variable {n : Node} {f : String → String}

theorem fieldText_blot (g : Field) :
    (n.respell blot).fieldText g = (n.fieldText g).map blot := by
  unfold fieldText
  rw [field_respell]
  cases n.field g with
  | none => rfl
  | some m => exact text_respell m

/-! ## Places -/

@[simp] theorem isPrototype_blot : (n.respell blot).isPrototype = n.isPrototype := by
  unfold isPrototype
  rw [kind_respell, fieldText_blot]
  cases n.fieldText .property with
  | error e => rfl
  | ok s =>
    -- the word is one of those that are kept
    have hs : (blot s == "prototype") = (s == "prototype") := blot_beq (by decide)
    simp only [Except.map, hs]

@[simp] theorem isPrototypeMember_blot :
    (n.respell blot).isPrototypeMember = n.isPrototypeMember := by
  unfold isPrototypeMember
  rw [field_respell]
  cases n.field .object with
  | none => rfl
  | some object => simp

@[simp] theorem prototypeContext?_blot :
    (n.respell blot).prototypeContext? = n.prototypeContext? := by
  simp [prototypeContext?]

@[simp] theorem assignmentContext?_blot :
    (n.respell blot).assignmentContext? = n.assignmentContext? := by
  unfold assignmentContext?
  rw [kind_respell, field_respell]
  cases n.field .left with
  | none => rfl
  | some left => simp

@[simp] theorem context_blot : (n.respell blot).context = n.context := by
  simp [context, contextOf, findSomeM?_map, List.any_map, Function.comp_def]

/-! ## Parts of a function -/

@[simp] theorem singleReturn_respell :
    (n.respell f).singleReturn = n.singleReturn.map (respell f) := by
  unfold singleReturn
  rw [statements_respell]
  -- only a block of one statement can be a single return
  rcases n.statements with _ | ⟨statement, _ | ⟨next, rest⟩⟩
  · rfl
  · cases hk : statement.kind == .returnStatement with
    | true => simp [hk]
    | false => simp [hk]
  · rfl

@[simp] theorem returnArgument_respell :
    (n.respell f).returnArgument = n.returnArgument.map (respell f) := by
  simp [returnArgument]

@[simp] theorem bodyShape_respell : (n.respell f).bodyShape = n.bodyShape := by
  unfold bodyShape
  rw [field_respell]
  cases n.field .body with
  | none => rfl
  | some body =>
    have hreturns : (body.respell f).singleReturn.bind returnArgument
        = (body.singleReturn.bind returnArgument).map (respell f) := by
      rw [singleReturn_respell]
      cases body.singleReturn with
      | none => rfl
      | some statement => exact returnArgument_respell
    dsimp only [Option.map_some]
    rw [kind_respell, hreturns]
    cases body.singleReturn.bind returnArgument with
    | none => rfl
    | some expression => rfl

@[simp] theorem headerTokens_respell :
    (n.respell f).headerTokens = n.headerTokens.map (respell f) := by
  unfold headerTokens
  rw [field_respell, field_respell, ← tokensBefore_respell]
  cases n.field .parameters with
  | none => rfl
  | some list => rfl

@[simp] theorem isAsync_respell : (n.respell f).isAsync = n.isAsync := by
  simp [isAsync, List.any_map, Function.comp_def]

@[simp] theorem isGenerator_respell : (n.respell f).isGenerator = n.isGenerator := by
  simp [isGenerator, List.any_map, Function.comp_def]

@[simp] theorem isDefaultExport_respell : (n.respell f).isDefaultExport = n.isDefaultExport := by
  simp [isDefaultExport, List.any_map, Function.comp_def]

@[simp] theorem isMember_respell : (n.respell f).isMember = n.isMember := by
  simp [isMember]

@[simp] theorem memberRole_respell : (n.respell f).memberRole = n.memberRole := by
  simp [memberRole]

@[simp] theorem memberKey_respell : (n.respell f).memberKey = n.memberKey.map (respell f) := by
  unfold memberKey
  rw [field_respell, field_respell, field_respell]
  cases n.field .key with
  | some key => rfl
  | none =>
    cases n.field .name with
    | some name => rfl
    | none => rfl

end Node

/-! ## Candidates -/

/-- The candidate `c` with all texts replaced by their `blot`. -/
def Candidate.blotted (c : Candidate) : Candidate :=
  { c with
    node := c.node.respell blot, name := blot c.name, entry := c.entry.map (Node.respell blot) }

namespace Node

variable {n : Node}

theorem candidateNamed_blot (role : Role) (shape : Shape) (name : String) :
    (n.respell blot).candidateNamed role shape (blot name)
      = (n.candidateNamed role shape name).map Candidate.blotted := by
  unfold candidateNamed
  rw [context_blot, bodyShape_respell, isAsync_respell, isGenerator_respell]
  cases n.context with
  | error e => rfl
  | ok context => rfl

/-- What `g` makes of the candidate under a name, `g'` makes of the blotted one. -/
theorem map_candidateNamed_blot (role : Role) (shape : Shape) (name : String)
    {g g' : Candidate → Candidate} (hg : ∀ c, g' c.blotted = (g c).blotted) :
    ((n.respell blot).candidateNamed role shape (blot name)).map (fun c => some (g' c))
      = ((n.candidateNamed role shape name).map fun c => some (g c)).map
          (Option.map Candidate.blotted) := by
  rw [candidateNamed_blot]
  cases n.candidateNamed role shape name with
  | error e => rfl
  | ok c => exact congrArg (fun d => Except.ok (some d)) (hg c)

theorem map_toCandidate_blot (role : Role) (shape : Shape) {g : Candidate → Candidate}
    (hg : ∀ c, g c.blotted = (g c).blotted) :
    ((n.respell blot).toCandidate role shape).map (fun c => some (g c))
      = ((n.toCandidate role shape).map fun c => some (g c)).map
          (Option.map Candidate.blotted) := by
  unfold toCandidate
  rw [fieldText_blot]
  cases n.fieldText .name with
  | error e => rfl
  | ok name => exact map_candidateNamed_blot role shape name hg

theorem memberCandidate_blot {key : Node} (role : Role) (shape : Shape)
    {g g' : Candidate → Candidate} (hg : ∀ c, g' c.blotted = (g c).blotted) :
    (do
      let c ← (n.respell blot).candidateNamed role shape (← (key.respell blot).text)
      return some (g' c)) = (do
        let c ← n.candidateNamed role shape (← key.text)
        return some (g c) : Except NodeError (Option Candidate)).map
          (Option.map Candidate.blotted) := by
  rw [text_respell]
  cases key.text with
  | error e => rfl
  | ok name => exact map_candidateNamed_blot role shape name hg

theorem propertyCandidate?_blot (entry : Node) :
    (n.respell blot).propertyCandidate? (entry.respell blot)
      = (n.propertyCandidate? entry).map (Option.map Candidate.blotted) := by
  unfold propertyCandidate?
  rw [isParentField_respell, memberKey_respell, memberRole_respell]
  split
  · rfl
  · cases entry.memberKey with
    | none => rfl
    | some key =>
      dsimp only [Option.map_some]
      rw [kind_respell]
      split
      · exact memberCandidate_blot _ _ fun c => rfl
      · rfl

theorem functionCandidate?_blot : (n.respell blot).functionCandidate?
    = n.functionCandidate?.map (Option.map Candidate.blotted) := by
  unfold functionCandidate?
  rw [field_respell, Option.isNone_map, parent_respell, kind_respell]
  split
  · rfl
  · cases n.parent with
    | none => exact map_toCandidate_blot _ _ fun c => rfl
    | some parent =>
      dsimp only [Option.map_some]
      rw [isDefaultExport_respell, isMember_respell, propertyCandidate?_blot]
      split
      · exact map_toCandidate_blot _ _ fun c => rfl
      · split
        · rfl
        · exact map_toCandidate_blot _ _ fun c => rfl

theorem methodCandidate?_blot :
    (n.respell blot).methodCandidate? = n.methodCandidate?.map (Option.map Candidate.blotted) := by
  unfold methodCandidate?
  rw [field_respell, field_respell, Option.isNone_map]
  cases n.field .name with
  | none => rfl
  | some key =>
    -- the words ahead of the name are told by their kinds
    have hleading : ((n.respell blot).tokensBefore (some (key.respell blot))).map (·.kind)
        = (n.tokensBefore (some key)).map (·.kind) := by
      rw [← Option.map_some, tokensBefore_respell, List.map_map]
      exact List.map_congr_left fun t _ => kind_respell t
    dsimp only [Option.map_some]
    rw [hleading, kind_respell, memberRole_respell, isGenerator_respell]
    split
    · rfl
    · split
      · rfl
      · exact memberCandidate_blot _ _ fun c => rfl

theorem arrowCandidate?_blot :
    (n.respell blot).arrowCandidate? = n.arrowCandidate?.map (Option.map Candidate.blotted) := by
  unfold arrowCandidate?
  rw [field_respell]
  cases n.field .body with
  | none => rfl
  | some body =>
    dsimp only [Option.map_some]
    rw [kind_respell, singleReturn_respell, Option.isSome_map]
    split
    · exact map_toCandidate_blot _ _ fun c => rfl
    · split
      · exact map_toCandidate_blot _ _ fun c => rfl
      · rfl

/-- In the tree with its texts blotted out `candidate?` finds the `blotted` candidates. -/
theorem candidate?_blot :
    (n.respell blot).candidate? = n.candidate?.map (Option.map Candidate.blotted) := by
  unfold candidate?
  rw [kind_respell, label_respell, Label.isNamed_respell, functionCandidate?_blot,
    methodCandidate?_blot, arrowCandidate?_blot]
  split
  · rfl
  · split
    · rfl
    · rfl
    · rfl
    · rfl
    · rfl

/-! ## Verdicts -/

theorem obstacle?_blot : (n.respell blot).obstacle? = n.obstacle? := by
  unfold obstacle?
  rw [kind_respell, text_respell]
  cases n.text with
  | error e => rfl
  | ok s =>
    have harguments : (blot s == "arguments") = (s == "arguments") := blot_beq (by decide)
    simp only [Except.map, harguments, spellsOut_blot]

theorem scanned_respell {f : String → String} :
    (n.respell f).scanned = n.scanned.map (respell f) := by
  unfold scanned
  rw [kind_respell]
  split
  · have hparts : methodParts.filterMap (n.respell f).field
        = (methodParts.filterMap n.field).map (respell f) := by
      rw [List.map_filterMap]
      exact congrArg (methodParts.filterMap ·) (funext (field_respell n))
    rw [hparts, List.flatMap_map, List.map_flatMap]
    simp only [walk_respell]
  · exact walk_respell n

end Node

namespace Candidate

variable {c : Candidate} {o : Options}

theorem blocking?_blot : c.blotted.blocking? o = c.blocking? o := by
  unfold blocking?
  have hscan : c.blotted.node.scanned.findSomeM? Node.obstacle?
      = c.node.scanned.findSomeM? Node.obstacle? := by
    rw [blotted, Node.scanned_respell, findSomeM?_map]
    simp only [Node.obstacle?_blot]
  rw [hscan]
  rfl

theorem isNamedDefaultExport_blot : c.blotted.isNamedDefaultExport = c.isNamedDefaultExport := by
  have hname : (blot c.name != "") = (c.name != "") := congrArg not (blot_beq (by decide))
  exact congrArg (c.isDefaultExport && ·) hname

theorem singleReturnGate?_blot : c.blotted.singleReturnGate? o = c.singleReturnGate? o := by
  unfold singleReturnGate?
  rw [isNamedDefaultExport_blot]
  rfl

theorem isOptionalMember_blot : c.blotted.isOptionalMember = c.isOptionalMember := by
  unfold isOptionalMember blotted
  cases c.entry with
  | none => rfl
  | some entry => simp [List.any_map, Function.comp_def]

theorem functionVerdict_blot : c.blotted.functionVerdict o = c.functionVerdict o := by
  unfold functionVerdict
  rw [blocking?_blot, singleReturnGate?_blot]
  rfl

theorem propertyVerdict_blot : c.blotted.propertyVerdict o = c.propertyVerdict o := by
  have hname : (blot c.name == "constructor") = (c.name == "constructor") := blot_beq (by decide)
  unfold propertyVerdict
  rw [functionVerdict_blot, isOptionalMember_blot]
  simp only [blotted, hname]

/-- The `verdict` on a candidate is that on the `blotted` one. -/
theorem verdict_blot : c.blotted.verdict o = c.verdict o := by
  unfold verdict expressionBodyVerdict singleReturnVerdict
  rw [functionVerdict_blot, propertyVerdict_blot, blocking?_blot]
  rfl

end Candidate

/-! ## Nodes that look alike -/

/-- Whether `n` and `m` are the same when the texts of their trees are blotted out. -/
def Node.IsLike (n m : Node) : Prop :=
  n.respell blot = m.respell blot

variable {n m : Node} {c d : Candidate} {o : Options}

/-- Nodes that are alike make candidates with the same `blotted` form. -/
theorem Node.IsLike.exists_candidate? (h : n.IsLike m) (hc : n.candidate? = .ok (some c)) :
    ∃ d, m.candidate? = .ok (some d) ∧ d.blotted = c.blotted := by
  have hm : m.candidate?.map (Option.map Candidate.blotted) = .ok (some c.blotted) := by
    rw [← candidate?_blot, ← h, candidate?_blot, hc]
    rfl
  obtain ⟨found, hf, hfound⟩ := map_eq_ok_iff.1 hm
  obtain ⟨d, rfl, hd⟩ := Option.map_eq_some_iff.1 hfound
  exact ⟨d, hf, hd⟩

theorem Candidate.verdict_congr (h : d.blotted = c.blotted) : d.verdict o = c.verdict o := by
  rw [← verdict_blot, h, verdict_blot]

theorem Node.line_respell (f : String → String) (n : Node) : (n.respell f).line = n.line := by
  rw [line, label_respell]
  rfl

theorem Rule.locationOf_respell (f : String → String) (n : Node) (path : String) :
    locationOf (n.respell f) path = locationOf n path := by
  rw [locationOf, n.line_respell, n.label_respell]
  rfl

/-- Candidates with the same `blotted` form stand at the same place. -/
theorem Candidate.place_congr (h : d.blotted = c.blotted) (path : String) :
    Rule.locationOf d.node path = Rule.locationOf c.node path ∧ d.node.line = c.node.line := by
  have hnode : d.node.respell blot = c.node.respell blot := congrArg Candidate.node h
  constructor
  · rw [← Rule.locationOf_respell blot, hnode, Rule.locationOf_respell]
  · rw [← d.node.line_respell blot, hnode, Node.line_respell]

namespace Rule

/-- What is reported of `n` is reported of every `m` in a legible tree that `n` `IsLike`, though
    with a `fix` of its own. -/
theorem reports_of_isLike {rule : Rule} {path : String} {v : Violation} (h : n.IsLike m)
    (hl : m.whole.IsLegible) (hv : rule.check path n = .ok (.violation v)) :
    ∃ fix, rule.check path m = .ok (.violation { v with fix := fix }) := by
  obtain ⟨c, hc, hjudge⟩ := exists_judge_of_check hv
  obtain ⟨message, _, hverdict, -, -, hreport⟩ := judge_eq_violation hjudge
  obtain ⟨d, hd, hlike⟩ := h.exists_candidate? hc
  obtain ⟨hlocation, hline⟩ := Candidate.place_congr hlike path
  -- the candidate found in the other node has an answer, and it has the same verdict
  obtain ⟨finding, hfinding⟩ := exists_judge rule path (Node.makes_of_candidate? hd) hl
  have hsame : d.verdict rule.options = .ok (.report message) :=
    (Candidate.verdict_congr hlike).trans hverdict
  rcases judge_eq_ok hfinding with ⟨_, hskip, -⟩ | ⟨_, _, fix, hverdict', -, -, hfix⟩
  · rw [hsame] at hskip
    cases hskip
  · rw [hsame] at hverdict'
    obtain rfl := Verdict.report.inj (Except.ok.inj hverdict')
    refine ⟨fix, ?_⟩
    rw [check_of_candidate? hd, hfinding, hfix, hlocation, hline, hreport]

end Rule

end ArrowLint
