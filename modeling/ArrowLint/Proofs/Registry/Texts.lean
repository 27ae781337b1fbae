/-
  ArrowLint.Proofs.Registry.Texts

  The texts that a registry gives to messages. Whatever stands in a registry, each of the four
  messages gets one text, and none of them is empty: a template that counts as present is written
  as some text (`Value.display_ne_empty`), and where there is none the message has its own. A
  linter that takes its texts from a registry reports no violation without a text
  (`Linter.messages_of_registry`).

    * `MessageTexts.textFor_withTexts`: texts under different names each stand for their name;
    * `Registry.textOf_ne_empty`: no text from a registry is empty.
-/

import ArrowLint.CommandLine.Session
import ArrowLint.Proofs.Lint.Reports
import ArrowLint.Proofs.Value.Numeral

namespace ArrowLint

/-! ## Values as texts -/

theorem toString_int_ne_empty (i : Int) : toString i ≠ "" := by
  rw [Ne, ← String.toList_eq_nil_iff, Json.toList_toString_int, List.append_eq_nil_iff]
  exact fun h => Nat.toDigits_ne_nil h.2

theorem Decimal.literal_ne_empty (d : Decimal) : d.literal ≠ "" := by
  unfold literal
  dsimp only
  -- each of the forms has a sign of its own that is always there
  rw [Ne, String.append_eq_empty_iff]
  rintro ⟨-, h⟩
  split at h
  · exact absurd h (by decide)
  · split at h
    · simp at h
    · split at h
      · simp at h
      · split at h
        · simp [← String.toList_eq_nil_iff] at h
        · simp at h

/-- A value that `isPresent` does not stand for an empty text. -/
theorem Value.display_ne_empty {v : Value} (h : v.isPresent = true) : v.display ≠ "" := by
  cases v with
  | null => cases h
  | bool b =>
    obtain rfl : b = true := h
    decide
  | int i => exact toString_int_ne_empty i
  | decimal d => exact d.literal_ne_empty
  | text s => simpa [isPresent, display] using h
  | list items => simp [display, literal]
  | table entries => simp [display, literal]

/-! ## Texts by names -/

namespace MessageTexts

variable {given : List (String × String)} {id text k : String}

theorem lookup_cons_eq (entry : String × String) (entries : List (String × String)) (k : String) :
    (entry :: entries).lookup k = if k = entry.1 then some entry.2 else entries.lookup k := by
  rw [List.lookup_cons]
  by_cases here : k = entry.1
  · rw [here, beq_self_eq_true, if_pos rfl]
  · rw [beq_false_of_ne here, if_neg here]

/-- Looking up `k` after the text of `id` has been changed in its place: the new text for `id`
    itself, and the old one for other names. -/
theorem lookup_map_replace (entries : List (String × String)) :
    (entries.map fun entry => if entry.1 == id then (id, text) else entry).lookup k
      = if k = id then (if entries.any (·.1 == id) then some text else none)
        else entries.lookup k := by
  induction entries with
  | nil => simp
  | cons entry entries ih =>
    rw [List.map_cons, lookup_cons_eq, ih, List.any_cons, lookup_cons_eq]
    by_cases here : entry.1 = id
    · by_cases same : k = id <;> simp [here, same]
    · by_cases same : k = id
      · subst same
        rw [beq_false_of_ne here, Bool.false_or]
        simp [Ne.symm here]
      · simp [here, same]

/-- Setting the text of `id` leaves other names theirs. -/
theorem textFor_put (texts : MessageTexts) (id text k : String) :
    (texts.put id text).textFor k = if k = id then text else texts.textFor k := by
  obtain ⟨entries⟩ := texts
  unfold put textFor
  split
  case isTrue hany =>
    rw [lookup_map_replace, hany]
    by_cases same : k = id <;> simp [same]
  case isFalse hany =>
    rw [List.lookup_append, lookup_cons_eq]
    by_cases same : k = id
    · -- nothing ahead of the new entry has its name
      subst same
      have hnone : entries.lookup k = none := by
        rw [List.lookup_eq_none_iff]
        rintro entry hentry
        simp only [List.any_eq_true, not_exists, not_and, beq_iff_eq] at hany
        simpa using Ne.symm (hany entry hentry)
      simp [hnone]
    · simp [same]

/-- Texts for other names do not change what `textFor k` is. -/
theorem textFor_foldl_put_of_notMem (texts : MessageTexts) (h : k ∉ given.map (·.1)) :
    (given.foldl (fun texts entry => texts.put entry.1 entry.2) texts).textFor k
      = texts.textFor k := by
  induction given generalizing texts with
  | nil => rfl
  | cons entry given ih =>
    obtain ⟨hne, hk⟩ := not_or.1 (mt List.mem_cons.2 h)
    rw [List.foldl_cons, ih _ hk, textFor_put, if_neg hne]

/-- Under names that differ, `textFor` gives each of the texts for its name. -/
theorem textFor_withTexts (hn : (given.map (·.1)).Nodup) (h : (id, text) ∈ given) :
    (withTexts given).textFor id = text := by
  have hfold : ∀ texts : MessageTexts,
      (given.foldl (fun texts entry => texts.put entry.1 entry.2) texts).textFor id = text := by
    induction given with
    | nil => cases h
    | cons entry given ih =>
      intro texts
      obtain ⟨hentry, hrest⟩ := List.nodup_cons.1 hn
      rw [List.foldl_cons]
      rcases List.mem_cons.1 h with rfl | hmem
      · rw [textFor_foldl_put_of_notMem _ hentry, textFor_put, if_pos rfl]
      · exact ih hrest hmem _
  exact hfold default

end MessageTexts

/-! ## Texts of a registry -/

namespace Registry

variable {registry entry : Table} {m : Message} {template : Value}

theorem present?_eq_some_iff {key : String} {v : Value} :
    present? entry key = some v ↔ Table.get? entry key = some v ∧ v.isPresent = true :=
  Option.filter_eq_some_iff

/-- The entry under the key of a message is what `lookup?` finds for the message. -/
theorem lookup?_of_get? {id : String} (h : registry.get? (keyLead ++ id) = some (.table entry)) :
    lookup? registry id = some entry := by
  rw [lookup?, h]
  rfl

theorem textOf_of_template (hentry : lookup? registry m.id = some entry)
    (htemplate : Table.get? entry "message_template" = some template)
    (hpresent : template.isPresent = true) : textOf registry m = template.display := by
  rw [textOf, hentry, Option.bind_some, present?_eq_some_iff.2 ⟨htemplate, hpresent⟩]

/-- The `textOf` a message is never empty: a template that is there is written as some text. -/
theorem textOf_ne_empty (registry : Table) (m : Message) : textOf registry m ≠ "" := by
  unfold textOf
  split
  · next template h =>
    obtain ⟨entry, -, hpresent⟩ := Option.bind_eq_some_iff.1 h
    exact Value.display_ne_empty (present?_eq_some_iff.1 hpresent).2
  · cases m with
    | useArrowWhenFunction => decide
    | useArrowWhenSingleReturn => decide
    | useExplicit => decide
    | useImplicit => decide

theorem mem_texts (registry : Table) (m : Message) :
    (m.id, textOf registry m) ∈ texts registry := by
  refine List.mem_map.2 ⟨m, ?_, rfl⟩
  cases m with
  | useArrowWhenFunction => decide
  | useArrowWhenSingleReturn => decide
  | useExplicit => decide
  | useImplicit => decide

theorem nodup_texts (registry : Table) : ((texts registry).map (·.1)).Nodup := by
  have hnames : (texts registry).map (·.1) = Message.all.map Message.id := by
    rw [texts, List.map_map]
    rfl
  rw [hnames]
  decide

/-- With the `texts` of a registry each message has its `textOf` the registry. -/
theorem textFor_texts (registry : Table) (m : Message) :
    (MessageTexts.withTexts (texts registry)).textFor m.id = textOf registry m :=
  MessageTexts.textFor_withTexts (nodup_texts registry) (mem_texts registry m)

end Registry

/-! ## Texts of violations -/

/-- A violation names a `Message` and carries the text that the rule has for it. -/
theorem Linter.message_of_mem_violations {linter : Linter} {source path : String}
    {report : LintReport} (h : linter.lint source path = .ok report) {v : Violation}
    (hv : v ∈ report.result.violations) :
    ∃ m : Message, v.code = m.id ∧ v.message = linter.rule.texts.textFor m.id := by
  rw [violations_eq_map_reports h] at hv
  obtain ⟨⟨n, v⟩, hmem, rfl⟩ := List.mem_map.1 hv
  obtain ⟨c, -, hjudge⟩ := Rule.exists_judge_of_check (mem_reports_iff.1 hmem).2
  obtain ⟨m, -, -, -, -, hfields⟩ := Rule.judge_eq_violation hjudge
  exact ⟨m, congrArg Violation.code hfields, congrArg Violation.message hfields⟩

/-- A workspace is prepared with the `texts` of the registry. -/
theorem CommandLine.texts_of_prepare {env : Environment} {settings : Settings} {w : Wishes}
    {events : List Event} {workspace : Workspace}
    (h : prepare env settings w = (events, some workspace)) :
    workspace.linter.rule.texts = .withTexts (Registry.texts env.registry) := by
  unfold prepare at h
  split at h
  · simp at h
  · dsimp only at h
    split at h
    · simp at h
    · obtain rfl := Option.some.inj (Prod.mk.inj h).2
      rfl

/-- A registry of whatever shape gives each of the four messages one text, and no empty one: the
    `message_template` of its entry if that `isPresent`, and its `defaultText` where there is no
    entry. A linter with these texts, as every call has one, reports each violation with the text of
    its message. -/
theorem Linter.messages_of_registry (registry : Table) :
    (Registry.texts registry).map (·.1)
      = ["UseArrowWhenFunction", "UseArrowWhenSingleReturn", "UseExplicit", "UseImplicit"] ∧
    (∀ entry ∈ Registry.texts registry, entry.2 ≠ "") ∧
    (∀ (m : Message) (entry : Table) (template : Value),
      registry.get? (Registry.keyLead ++ m.id) = some (.table entry) →
      Table.get? entry "message_template" = some template → template.isPresent = true →
      (m.id, template.display) ∈ Registry.texts registry) ∧
    (∀ m : Message, Registry.lookup? registry m.id = none →
      (m.id, m.defaultText) ∈ Registry.texts registry) ∧
    (∀ env settings w events workspace, env.registry = registry →
      CommandLine.prepare env settings w = (events, some workspace) →
      workspace.linter.rule.texts = .withTexts (Registry.texts registry)) ∧
    ∀ linter : Linter, linter.rule.texts = .withTexts (Registry.texts registry) →
      ∀ source path report, linter.lint source path = .ok report →
        ∀ v ∈ report.result.violations,
          v.message ≠ "" ∧ (v.code, v.message) ∈ Registry.texts registry := by
  refine ⟨rfl, fun entry hentry => ?_, fun m entry template hget htemplate hpresent => ?_,
    fun m hnone => ?_, ?_, fun linter htexts source path report h v hv => ?_⟩
  · obtain ⟨m, -, rfl⟩ := List.mem_map.1 hentry
    exact Registry.textOf_ne_empty registry m
  · rw [← Registry.textOf_of_template (Registry.lookup?_of_get? hget) htemplate hpresent]
    exact Registry.mem_texts registry m
  · have hown : Registry.textOf registry m = m.defaultText := by
      rw [Registry.textOf, hnone]
      rfl
    rw [← hown]
    exact Registry.mem_texts registry m
  · rintro env settings w events workspace rfl hprepare
    exact CommandLine.texts_of_prepare hprepare
  · obtain ⟨m, hcode, hmessage⟩ := message_of_mem_violations h hv
    rw [htexts, Registry.textFor_texts] at hmessage
    rw [hcode, hmessage]
    exact ⟨Registry.textOf_ne_empty registry m, Registry.mem_texts registry m⟩

/-- A registry in which hardly anything is what it should be. -/
def Registry.odd : Table :=
  [("prefer-arrow.UseArrowWhenFunction", .null),
    ("prefer-arrow.UseArrowWhenSingleReturn", .table [("message_template", .text "")]),
    ("prefer-arrow.UseExplicit", .table [("message_template", .list [.null])]),
    ("prefer-arrow.other", .table [("symbol", .text "UseArrowWhenFunction"),
      ("message_template", .bool true)])]

/-- The message that goes by a symbol in `Registry.odd` is reported with the text of the entry that
    has it. -/
theorem Linter.messages_of_registry_odd :
    ("UseExplicit", "[None]") ∈ Registry.texts Registry.odd ∧
    ("UseImplicit", Message.useImplicit.defaultText) ∈ Registry.texts Registry.odd ∧
    ∃ report v, lint ⟨⟨{}, .withTexts (Registry.texts Registry.odd)⟩, .emptyFunction⟩
        "function f() {}" "f.ts" = .ok report ∧
      report.result.violations = [v] ∧ v.message = "True" ∧
      v.message ≠ "" ∧ (v.code, v.message) ∈ Registry.texts Registry.odd := by
  obtain ⟨-, -, htemplate, hown, -, hlint⟩ := messages_of_registry Registry.odd
  have hrun : ∃ report v, lint ⟨⟨{}, .withTexts (Registry.texts Registry.odd)⟩, .emptyFunction⟩
        "function f() \x7b\x7d" "f.ts" = .ok report ∧
      report.result.violations = [v] ∧ v.message = "True" := ⟨_, _, rfl, rfl, rfl⟩
  obtain ⟨report, v, h, hv, hmessage⟩ := hrun
  refine ⟨htemplate .useExplicit [("message_template", .list [.null])] (.list [.null]) rfl rfl rfl,
    hown .useImplicit rfl, report, v, h, hv, hmessage, ?_⟩
  exact hlint _ rfl _ _ report h v (by rw [hv]; exact List.mem_cons_self)

end ArrowLint
