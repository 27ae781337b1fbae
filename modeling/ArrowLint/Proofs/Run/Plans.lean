/-
  ArrowLint.Proofs.Run.Plans

  A run over files as the carrying out of plans. Each file is planned only when its turn comes,
  from a store that the files ahead of it have changed; `Workspace.fixFiles_cons` says once how a
  run gets past one file, and the proofs about whole runs go by it. As long as no plan writes to
  what is found at another file's place (`Workspace.Apart`), all the same each plan is the one
  that the store at the start gives (`Workspace.exists_carriesOut`); so what a run does to a file
  can be said of that store and of this file alone (`FixProgress.CarriesOut.exists_split`).
-/

import ArrowLint.Proofs.Store.Changes

namespace ArrowLint

variable {w : Workspace} {mode : Workspace.FixMode} {s t : FileStore} {file : Location}
  {files : List Location} {c : Change} {plan : Workspace.Plan}

/-- A prefix of `a ++ b` is a prefix of `a` and one of `b`. -/
theorem exists_append_of_isPrefix {α : Type} {l a b : List α} (h : l <+: a ++ b) :
    ∃ x y, l = x ++ y ∧ x <+: a ∧ y <+: b := by
  rcases List.prefix_or_prefix_of_prefix h (List.prefix_append a b) with ha | ⟨y, rfl⟩
  · exact ⟨l, [], (List.append_nil l).symm, ha, List.nil_prefix⟩
  · exact ⟨a, y, rfl, List.prefix_rfl, (List.prefix_append_right_inj a).1 h⟩

/-! ## Plans -/

theorem FileStore.readText_congr (hc : t.contents? file = s.contents? file)
    (hd : t.isDirectory file = s.isDirectory file) : t.readText file = s.readText file := by
  rw [readText, readText, readBytes, readBytes, hc, hd]

namespace Workspace

/-- The plan for `file` looks at nothing but what `file` holds and whether it is a directory. -/
theorem planFix_congr (hc : t.contents? file = s.contents? file)
    (hd : t.isDirectory file = s.isDirectory file) :
    w.planFix mode t file = w.planFix mode s file := by
  rw [planFix, planFix, FileStore.readText_congr hc hd]

/-- The plan for a file that cannot be read has no outcome and changes nothing; for any other the
    outcome is that of `fixSource`, and there are `changesFor` it if that `isChanged`. -/
theorem planFix_eq_ok (h : w.planFix mode s file = .ok plan) :
    (∃ e, s.readText file = .error e ∧ plan.outcome = none ∧ plan.changes = []) ∨
    ∃ source report, s.readText file = .ok source ∧
      w.linter.fixSource source file.toText mode.limit = .ok report ∧
      plan.outcome = some report.outcome ∧
      plan.changes
        = if report.outcome.isChanged then changesFor mode file report.outcome else [] := by
  unfold planFix at h
  split at h
  · next e hr =>
    obtain rfl := Except.ok.inj h
    exact .inl ⟨e, hr, rfl, rfl⟩
  · next source hr =>
    obtain ⟨report, hf, hplan⟩ := map_eq_ok_iff.1 h
    refine .inr ⟨source, report, hr, hf, ?_⟩
    by_cases hch : report.outcome.isChanged = true
    · simp only [if_pos hch] at hplan ⊢
      rw [← hplan]
      exact ⟨rfl, rfl⟩
    · simp only [if_neg hch] at hplan ⊢
      rw [← hplan]
      exact ⟨rfl, rfl⟩

theorem mem_changesFor {o : FixOutcome} (h : c ∈ changesFor mode file o) :
    mode.dryRun = false ∧ (mode.backups = true ∧ c = .backUp file ∨ c = .write file o.fixed) := by
  unfold changesFor at h
  split at h
  · cases h
  · next hdry =>
    refine ⟨by simpa using hdry, ?_⟩
    split at h
    · next hb => simpa [hb] using h
    · exact .inr (by simpa using h)

/-- The changes of a plan back its `file` up, where that is wanted, and write it. -/
theorem mem_changes_of_planFix (h : w.planFix mode s file = .ok plan) (hc : c ∈ plan.changes) :
    mode.dryRun = false ∧
      (mode.backups = true ∧ c = .backUp file ∨ ∃ text, c = .write file text) := by
  rcases planFix_eq_ok h with ⟨e, -, -, hno⟩ | ⟨source, report, -, -, -, hch⟩
  · rw [hno] at hc
    cases hc
  · rw [hch] at hc
    split at hc
    · obtain ⟨hdry, hwhat⟩ := mem_changesFor hc
      exact ⟨hdry, hwhat.imp_right fun hw => ⟨_, hw⟩⟩
    · cases hc

/-- In a dry run a plan has no `changes`. -/
theorem changes_of_dryRun (hdry : mode.dryRun = true) (h : w.planFix mode s file = .ok plan) :
    plan.changes = [] := by
  refine List.eq_nil_iff_forall_not_mem.2 fun c hc => ?_
  rw [(mem_changes_of_planFix h hc).1] at hdry
  cases hdry

/-! ## Carrying plans out -/

/-- The changes that `carryOut` makes are those asked for, up to the first that fails. It fixes
    nothing itself. -/
theorem carryOut_spec (s : FileStore) (changes : List Change) :
    (carryOut s changes).changes <+: changes ∧
      s.applyAll (carryOut s changes).changes = .ok (carryOut s changes).store ∧
      ((carryOut s changes).error = none → (carryOut s changes).changes = changes) ∧
      (carryOut s changes).outcomes = [] := by
  induction changes generalizing s with
  | nil => exact ⟨List.prefix_rfl, rfl, fun _ => rfl, rfl⟩
  | cons c changes ih =>
    unfold carryOut
    cases hc : s.apply c with
    | error e => exact ⟨List.nil_prefix, rfl, (fun h => by cases h), rfl⟩
    | ok u =>
      obtain ⟨hpart, hstore, hall, hnone⟩ := ih u
      refine ⟨(List.prefix_cons_inj c).2 hpart, ?_, fun h => ?_, hnone⟩
      · exact FileStore.applyAll_cons_iff.2 ⟨u, hc, hstore⟩
      · exact congrArg (c :: ·) (hall h)

/-- How a run over `file :: files` goes: there is no plan for `file`, or the run ends within the
    plan, or it makes all changes of the plan and goes on over `files`. -/
theorem fixFiles_cons (w : Workspace) (mode : FixMode) (s : FileStore) (file : Location)
    (files : List Location) {p : FixProgress} (hp : w.fixFiles mode s (file :: files) = p) :
    (p.error ≠ none ∧ p.store = s ∧ p.changes = [] ∧ p.outcomes = []) ∨
    ∃ plan, w.planFix mode s file = .ok plan ∧
      ((p.error ≠ none ∧ p.changes <+: plan.changes ∧ s.applyAll p.changes = .ok p.store ∧
          p.outcomes = []) ∨
        ∃ t rest, s.applyAll plan.changes = .ok t ∧ w.fixFiles mode t files = rest ∧
          p.error = rest.error ∧ p.store = rest.store ∧
          p.changes = plan.changes ++ rest.changes ∧
          p.outcomes = plan.outcome.toList ++ rest.outcomes) := by
  subst hp
  cases hplan : w.planFix mode s file with
  | error e =>
    rw [fixFiles, hplan]
    exact .inl ⟨Option.some_ne_none _, rfl, rfl, rfl⟩
  | ok plan =>
    obtain ⟨hpart, hstore, hall, hnone⟩ := carryOut_spec s plan.changes
    refine .inr ⟨plan, rfl, ?_⟩
    rw [fixFiles, hplan]
    dsimp only
    cases herr : (carryOut s plan.changes).error with
    | some e => exact .inl ⟨Option.some_ne_none e, hpart, hstore, hnone⟩
    | none =>
      rw [hall herr] at hstore
      exact .inr ⟨_, _, hstore, rfl, rfl, rfl, by rw [hall herr], rfl⟩

/-- Whatever `fixFiles` does to the store, it does by changes that back one of `files` up or write
    it. -/
theorem fixFiles_spec (w : Workspace) (mode : FixMode) (s : FileStore) (files : List Location) :
    s.applyAll (w.fixFiles mode s files).changes = .ok (w.fixFiles mode s files).store ∧
      ∀ c ∈ (w.fixFiles mode s files).changes, mode.dryRun = false ∧
        ∃ file ∈ files, mode.backups = true ∧ c = .backUp file ∨ ∃ text, c = .write file text := by
  -- on the files, for all stores: each file leaves another store to those behind it
  induction files generalizing s with
  | nil => exact ⟨rfl, fun c hc => absurd hc List.not_mem_nil⟩
  | cons file files ih =>
    rcases w.fixFiles_cons mode s file files rfl with ⟨-, hstore, hchanges, -⟩ |
      ⟨plan, hplan, ⟨-, hpart, hmade, -⟩ | ⟨t, rest, hmade, rfl, -, hstore, hchanges, -⟩⟩
    · rw [hstore, hchanges]
      exact ⟨rfl, fun c hc => absurd hc List.not_mem_nil⟩
    · refine ⟨hmade, fun c hc => ?_⟩
      obtain ⟨hdry, hwhat⟩ := mem_changes_of_planFix hplan (hpart.subset hc)
      exact ⟨hdry, file, List.mem_cons_self, hwhat⟩
    · obtain ⟨hrest, hothers⟩ := ih t
      rw [hstore, hchanges]
      refine ⟨FileStore.applyAll_append_iff.2 ⟨t, hmade, hrest⟩, fun c hc => ?_⟩
      rcases List.mem_append.1 hc with hc | hc
      · obtain ⟨hdry, hwhat⟩ := mem_changes_of_planFix hplan hc
        exact ⟨hdry, file, List.mem_cons_self, hwhat⟩
      · obtain ⟨hdry, f, hf, hwhat⟩ := hothers c hc
        exact ⟨hdry, f, List.mem_cons_of_mem file hf, hwhat⟩

/-- Whether no plan for one of `files` writes to the file at the place of another one. -/
def Apart (w : Workspace) (mode : FixMode) (s : FileStore) (files : List Location) : Prop :=
  ∀ file ∈ files, ∀ plan, w.planFix mode s file = .ok plan → ∀ c ∈ plan.changes,
    ∀ other ∈ files, other ≠ file → s.fileAt (s.targetOf c) ≠ s.fileAt other

end Workspace

/-- How a run `p` over `files` has gone, in terms of the store `s` that it has started from: plans
    have been made for the first of the files, and their changes carried out up to some point;
    without an error, for all files and to the end. -/
structure FixProgress.CarriesOut (p : Workspace.FixProgress) (w : Workspace)
    (mode : Workspace.FixMode) (s : FileStore) (files done : List Location)
    (plans : List Workspace.Plan) : Prop where
  begun : done <+: files
  planned : done.map (w.planFix mode s) = plans.map .ok
  changes : p.changes <+: plans.flatMap (·.changes)
  store : s.applyAll p.changes = .ok p.store
  finished : p.error = none → done = files ∧ p.changes = plans.flatMap (·.changes) ∧
    p.outcomes = plans.filterMap (·.outcome)

namespace Workspace

/-- After the changes of the plan for `file`, the `files` behind it are still planned as they were
    from the start. -/
theorem planFix_of_applyAll (hapart : w.Apart mode s (file :: files))
    (hnew : file ∉ files) (hplan : w.planFix mode s file = .ok plan)
    (ht : s.applyAll plan.changes = .ok t) :
    ∀ other ∈ files, w.planFix mode t other = w.planFix mode s other := by
  intro other ho
  have hne : other ≠ file := fun h => hnew (h ▸ ho)
  refine planFix_congr (FileStore.contents?_of_applyAll ht fun c hc => ?_)
    (FileStore.isDirectory_of_applyAll ht other)
  exact hapart file List.mem_cons_self plan hplan c hc other (List.mem_cons_of_mem file ho) hne

/-- Files that are `Apart` stay so after the changes of the plan for the first of them. -/
theorem Apart.of_applyAll (hapart : w.Apart mode s (file :: files)) (hnew : file ∉ files)
    (hplan : w.planFix mode s file = .ok plan) (ht : s.applyAll plan.changes = .ok t) :
    w.Apart mode t files := by
  intro f hf plan' hplan' c hc other ho hne
  rw [FileStore.fileAt_of_applyAll ht, FileStore.targetOf_of_applyAll ht]
  rw [planFix_of_applyAll hapart hnew hplan ht f hf] at hplan'
  exact hapart f (List.mem_cons_of_mem file hf) plan' hplan' c hc other
    (List.mem_cons_of_mem file ho) hne

/-- A run over files that are `Apart` carries out what is planned from the start. -/
theorem exists_carriesOut (hnodup : files.Nodup) (hapart : w.Apart mode s files) :
    ∃ done plans, FixProgress.CarriesOut (w.fixFiles mode s files) w mode s files done plans := by
  -- on the files, for all stores: each file leaves another store to those behind it
  induction files generalizing s with
  | nil =>
    exact ⟨[], [], List.prefix_rfl, rfl, List.prefix_rfl, rfl, fun _ => ⟨rfl, rfl, rfl⟩⟩
  | cons file files ih =>
    obtain ⟨hnew, hrest⟩ := List.nodup_cons.1 hnodup
    rcases w.fixFiles_cons mode s file files rfl with ⟨herr, hstore, hchanges, -⟩ |
      ⟨plan, hplan, ⟨herr, hpart, hmade, -⟩ |
        ⟨t, rest, hmade, rfl, herr, hstore, hchanges, houtcomes⟩⟩
    · refine ⟨[], [], List.nil_prefix, rfl, ?_, ?_, fun h => absurd h herr⟩
      · rw [hchanges]
        exact List.prefix_rfl
      · rw [hchanges, hstore]
        rfl
    · -- the run ends within this plan
      refine ⟨[file], [plan], (List.prefix_cons_inj file).2 List.nil_prefix, ?_, ?_, hmade,
        fun h => absurd h herr⟩
      · rw [List.map_cons, hplan]
        rfl
      · rw [List.flatMap_singleton]
        exact hpart
    · have hsame := planFix_of_applyAll hapart hnew hplan hmade
      obtain ⟨done, plans, h⟩ := ih hrest (hapart.of_applyAll hnew hplan hmade)
      refine ⟨file :: done, plan :: plans, (List.prefix_cons_inj file).2 h.begun, ?_, ?_, ?_,
        fun hend => ?_⟩
      · rw [List.map_cons, List.map_cons, hplan, ← h.planned]
        refine congrArg (Except.ok plan :: ·) (List.map_congr_left fun other ho => ?_)
        exact (hsame other (h.begun.subset ho)).symm
      · rw [hchanges, List.flatMap_cons]
        exact (List.prefix_append_right_inj plan.changes).2 h.changes
      · rw [hchanges, hstore]
        exact FileStore.applyAll_append_iff.2 ⟨t, hmade, h.store⟩
      · obtain ⟨hdone, hplanned, hgiven⟩ := h.finished (herr ▸ hend)
        refine ⟨by rw [hdone], by rw [hchanges, List.flatMap_cons, hplanned], ?_⟩
        rw [houtcomes, hgiven, List.filterMap_cons]
        cases plan.outcome with
        | none => rfl
        | some o => rfl

end Workspace

/-! ## The part of one file -/

/-- A change that is planned for `files` comes from the plan for one of them. -/
theorem Workspace.exists_of_mem_flatMap_changes {plans : List Workspace.Plan}
    (h : files.map (w.planFix mode s) = plans.map .ok)
    (hc : c ∈ plans.flatMap (·.changes)) :
    ∃ file ∈ files, ∃ plan, w.planFix mode s file = .ok plan ∧ c ∈ plan.changes := by
  obtain ⟨plan, hp, hc⟩ := List.mem_flatMap.1 hc
  obtain ⟨file, hf, hplan⟩ := exists_of_mem_of_mapM_eq_ok (mapM_eq_ok_iff.2 h) hp
  exact ⟨file, hf, plan, hplan, hc⟩

namespace FixProgress.CarriesOut

variable {p : Workspace.FixProgress} {done : List Location} {plans : List Workspace.Plan}

/-- The plan for a `file` that has had its turn, between those for the files `ahead` of it and for
    the files `behind` it. -/
theorem exists_plan (h : CarriesOut p w mode s files done plans) (hf : file ∈ done) :
    ∃ ahead behind before plan after, done = ahead ++ file :: behind ∧
      plans = before ++ plan :: after ∧ w.planFix mode s file = .ok plan ∧
      ahead.map (w.planFix mode s) = before.map .ok ∧
      behind.map (w.planFix mode s) = after.map .ok := by
  obtain ⟨ahead, behind, rfl⟩ := List.append_of_mem hf
  have hplanned := h.planned
  rw [List.map_append, List.map_cons] at hplanned
  obtain ⟨before, rest, hplans, hbefore, hrest⟩ := List.map_eq_append_iff.1 hplanned.symm
  obtain ⟨plan, after, rfl, hplan, hafter⟩ := List.map_eq_cons_iff.1 hrest
  exact ⟨ahead, behind, before, plan, after, rfl, hplans, hplan.symm, hbefore.symm, hafter.symm⟩

/-- A change that is planned for the files around `file` is planned for another file. -/
theorem exists_other_of_mem {ahead behind : List Location} {before after : List Workspace.Plan}
    (hnodup : (ahead ++ file :: behind).Nodup)
    (hbefore : ahead.map (w.planFix mode s) = before.map .ok)
    (hafter : behind.map (w.planFix mode s) = after.map .ok)
    (hc : c ∈ before.flatMap (·.changes) ++ after.flatMap (·.changes)) :
    ∃ other ∈ ahead ++ behind, other ≠ file ∧
      ∃ plan, w.planFix mode s other = .ok plan ∧ c ∈ plan.changes := by
  obtain ⟨-, hbehind, hapart⟩ := List.nodup_append.1 hnodup
  rcases List.mem_append.1 hc with hc | hc
  · obtain ⟨other, ho, plan, hplan⟩ := Workspace.exists_of_mem_flatMap_changes hbefore hc
    exact ⟨other, List.mem_append_left behind ho, hapart other ho file List.mem_cons_self, plan,
      hplan⟩
  · obtain ⟨other, ho, plan, hplan⟩ := Workspace.exists_of_mem_flatMap_changes hafter hc
    refine ⟨other, List.mem_append_right ahead ho, fun heq => ?_, plan, hplan⟩
    exact (List.nodup_cons.1 hbehind).1 (heq ▸ ho)

/-- The changes of a run that are planned for `file` stand together in a `block`, and all others are
    planned for other files. -/
theorem exists_split (h : CarriesOut p w mode s files done plans) (hnodup : files.Nodup)
    (hf : file ∈ files) :
    ∃ before block after, p.changes = before ++ (block ++ after) ∧
      (∀ c ∈ before ++ after, ∃ other ∈ files, other ≠ file ∧
        ∃ plan, w.planFix mode s other = .ok plan ∧ c ∈ plan.changes) ∧
      (block = [] ∨ ∃ plan, w.planFix mode s file = .ok plan ∧ block <+: plan.changes) ∧
      (p.error = none → ∃ plan, w.planFix mode s file = .ok plan ∧ block = plan.changes ∧
        ∀ o, plan.outcome = some o → o ∈ p.outcomes) := by
  by_cases hdone : file ∈ done
  · obtain ⟨ahead, behind, before, plan, after, rfl, rfl, hplan, hbefore, hafter⟩ :=
      h.exists_plan hdone
    have hothers : ∀ c ∈ before.flatMap (·.changes) ++ after.flatMap (·.changes),
        ∃ other ∈ files, other ≠ file ∧
          ∃ plan, w.planFix mode s other = .ok plan ∧ c ∈ plan.changes := by
      intro c hc
      obtain ⟨other, ho, hne, hplan⟩ :=
        exists_other_of_mem (hnodup.sublist h.begun.sublist) hbefore hafter hc
      refine ⟨other, h.begun.subset ?_, hne, hplan⟩
      rcases List.mem_append.1 ho with ho | ho
      · exact List.mem_append_left _ ho
      · exact List.mem_append_right _ (List.mem_cons_of_mem file ho)
    have hall : (before ++ plan :: after).flatMap (·.changes)
        = before.flatMap (·.changes) ++ (plan.changes ++ after.flatMap (·.changes)) := by
      simp
    by_cases hend : p.error = none
    · obtain ⟨-, hchanges, houtcomes⟩ := h.finished hend
      refine ⟨_, plan.changes, _, hchanges.trans hall, hothers,
        .inr ⟨plan, hplan, List.prefix_rfl⟩, fun _ => ⟨plan, hplan, rfl, fun o ho => ?_⟩⟩
      rw [houtcomes]
      exact List.mem_filterMap.2 ⟨plan, by simp, ho⟩
    · have hpart := h.changes
      rw [hall] at hpart
      obtain ⟨x, rest, hx, hxb, hrest⟩ := exists_append_of_isPrefix hpart
      obtain ⟨y, z, rfl, hyp, hza⟩ := exists_append_of_isPrefix hrest
      refine ⟨x, y, z, hx, fun c hc => hothers c ?_, .inr ⟨plan, hplan, hyp⟩,
        fun hno => absurd hno hend⟩
      rcases List.mem_append.1 hc with hc | hc
      · exact List.mem_append_left _ (hxb.subset hc)
      · exact List.mem_append_right _ (hza.subset hc)
  · -- the run has ended ahead of this file
    refine ⟨p.changes, [], [], by simp, fun c hc => ?_, .inl rfl, fun hend => ?_⟩
    · rw [List.append_nil] at hc
      obtain ⟨other, ho, plan, hplan, hc⟩ :=
        Workspace.exists_of_mem_flatMap_changes h.planned (h.changes.subset hc)
      exact ⟨other, h.begun.subset ho, fun heq => hdone (heq ▸ ho), plan, hplan, hc⟩
    · rw [(h.finished hend).1] at hdone
      exact absurd hf hdone

end FixProgress.CarriesOut

end ArrowLint
