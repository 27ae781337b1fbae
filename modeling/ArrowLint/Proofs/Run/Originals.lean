/-
  ArrowLint.Proofs.Run.Originals

  What a run leaves behind. With room for the backups, a run reaches nothing but its files and these
  (`Workspace.fix_staysWithin`). A file is backed up before it is written, and where no two of the
  files and the backups share one (`FileStore.KeepsApart`), no other file of the run is written to
  either place. So at every point, what a file held at first is still in it or in its backup
  (`FixProgress.CarriesOut.original_or_backup`), also where the run breaks off or is stopped in the
  midst of a write, and at the end a file holds what fixing has made of its source
  (`FixProgress.CarriesOut.leaves`).

  A link can make two of the files share one. In `FileStore.linkedFunction` the file is rewritten
  through the first name, and the run makes no backup for the second.
-/

import ArrowLint.CommandLine.Session
import ArrowLint.Proofs.Run.Plans
import ArrowLint.Proofs.Store.Collected
import ArrowLint.Proofs.Syntax.Parsed

namespace ArrowLint

open FileStore (backupPlace)

variable {w : Workspace} {mode : Workspace.FixMode} {s t : FileStore} {file other : Location}
  {files done : List Location} {plans : List Workspace.Plan} {plan : Workspace.Plan} {c : Change}
  {p : Workspace.FixProgress} {paths : List String}

/-- Whether each of `files` is a file of its own, and so is the place of its backup, with no
    directory in the way of that. -/
structure FileStore.KeepsApart (s : FileStore) (files : List Location) : Prop where
  nodup : files.Nodup
  free : ∀ file ∈ files, s.isDirectory (backupPlace file) = false
  files_apart : ∀ file ∈ files, ∀ other ∈ files, s.fileAt other = s.fileAt file → other = file
  fresh : ∀ file ∈ files, ∀ other ∈ files, s.fileAt (backupPlace file) ≠ s.fileAt other
  backups_apart : ∀ file ∈ files, ∀ other ∈ files,
    s.fileAt (backupPlace other) = s.fileAt (backupPlace file) → other = file

namespace FileStore.KeepsApart

/-- A plan for `file` writes to `file` and, with backups, to its `backupPlace`. -/
theorem targetOf_eq (h : s.KeepsApart files) (hf : file ∈ files)
    (hplan : w.planFix mode s file = .ok plan) (hc : c ∈ plan.changes) :
    s.targetOf c = file ∨ mode.backups = true ∧ s.targetOf c = backupPlace file := by
  rcases (Workspace.mem_changes_of_planFix hplan hc).2 with ⟨hb, rfl⟩ | ⟨text, rfl⟩
  · exact .inr ⟨hb, copyPlace_eq (h.free file hf)⟩
  · exact .inl rfl

/-- A plan for another file writes neither to `file` nor to its `backupPlace`. -/
theorem targetOf_ne (h : s.KeepsApart files) (hf : file ∈ files) (ho : other ∈ files)
    (hne : other ≠ file) (hplan : w.planFix mode s other = .ok plan) (hc : c ∈ plan.changes) :
    s.fileAt (s.targetOf c) ≠ s.fileAt file ∧
      s.fileAt (s.targetOf c) ≠ s.fileAt (backupPlace file) := by
  rcases h.targetOf_eq ho hplan hc with htarget | ⟨-, htarget⟩
  · rw [htarget]
    exact ⟨fun heq => hne (h.files_apart file hf other ho heq),
      fun heq => h.fresh file hf other ho heq.symm⟩
  · rw [htarget]
    exact ⟨fun heq => h.fresh other ho file hf heq,
      fun heq => hne (h.backups_apart file hf other ho heq)⟩

theorem apart (h : s.KeepsApart files) : w.Apart mode s files := by
  intro file hf plan hplan c hc other ho hne
  exact (h.targetOf_ne ho hf (Ne.symm hne) hplan hc).1

end FileStore.KeepsApart

/-! ## On the way -/

/-- Nothing is planned unless the outcome `isChanged` and the run is no dry run. -/
theorem Workspace.changes_eq_nil {o : FixOutcome}
    (h : ¬(o.isChanged = true ∧ mode.dryRun = false)) :
    (if o.isChanged = true then changesFor mode file o else []) = [] := by
  by_cases hch : o.isChanged = true
  · rw [if_pos hch, changesFor, if_pos (by simpa [hch] using h)]
  · exact if_neg hch

/-- With backups, the part of a plan that has been carried out is nothing, or it starts with the
    `backUp` and goes on writing the file. -/
theorem Workspace.eq_nil_or_backUp_first {block : List Change} (hb : mode.backups = true)
    (hplan : w.planFix mode s file = .ok plan) (hblock : block <+: plan.changes) :
    block = [] ∨
      ∃ rest, block = .backUp file :: rest ∧ ∀ c ∈ rest, ∃ text, c = .write file text := by
  rcases planFix_eq_ok hplan with ⟨e, -, -, hno⟩ | ⟨source, report, -, -, -, hch⟩
  · rw [hno] at hblock
    exact .inl (List.prefix_nil.1 hblock)
  · rw [hch] at hblock
    by_cases hwrite : report.outcome.isChanged = true ∧ mode.dryRun = false
    · rw [if_pos hwrite.1, changesFor, if_neg (by simp [hwrite.2]), if_pos hb] at hblock
      rcases List.prefix_cons_iff.1 hblock with hnil | ⟨rest, rfl, hrest⟩
      · exact .inl hnil
      · exact .inr ⟨rest, rfl, fun c hc => ⟨_, List.mem_singleton.1 (hrest.subset hc)⟩⟩
    · rw [changes_eq_nil hwrite] at hblock
      exact .inl (List.prefix_nil.1 hblock)

namespace FileStore

/-- Once `file` has been backed up, its backup holds what it held, through all changes that do not
    write to the backup. -/
theorem contents?_backupPlace_of_backUp {v : FileStore} {changes : List Change}
    (hfree : s.isDirectory (backupPlace file) = false) (hv : s.apply (.backUp file) = .ok v)
    (hchanges : ∀ c ∈ changes, s.fileAt (s.targetOf c) ≠ s.fileAt (backupPlace file))
    (ht : v.IsMidway changes t) : t.contents? (backupPlace file) = s.contents? file := by
  have hcopy := contents?_targetOf_of_apply hv
  rw [targetOf, copyPlace_eq hfree] at hcopy
  have hkept : t.contents? (backupPlace file) = v.contents? (backupPlace file) := by
    refine ht.contents?_eq fun c hc => ?_
    rw [fileAt_of_apply hv, targetOf_congr (isDirectory_of_apply hv)]
    exact hchanges c hc
  exact hkept.trans hcopy

/-- On the way through a `block` that backs `file` up before it is written, and through changes
    elsewhere `after` it, what `file` held is in it or in its `backupPlace`. -/
theorem IsMidway.kept_or_copied {block after : List Change}
    (hblock : block = [] ∨
      ∃ rest, block = .backUp file :: rest ∧ ∀ c ∈ rest, ∃ text, c = .write file text)
    (hfree : s.isDirectory (backupPlace file) = false)
    (hfresh : s.fileAt (backupPlace file) ≠ s.fileAt file)
    (hafter : ∀ c ∈ after, s.fileAt (s.targetOf c) ≠ s.fileAt file ∧
      s.fileAt (s.targetOf c) ≠ s.fileAt (backupPlace file))
    (ht : s.IsMidway (block ++ after) t) :
    t.contents? file = s.contents? file ∨ t.contents? (backupPlace file) = s.contents? file := by
  rcases hblock with rfl | ⟨rest, rfl, hrest⟩
  · -- the file has not been changed
    exact .inl (ht.contents?_eq fun c hc => (hafter c hc).1)
  · have hmidway : s.IsMidway ([.backUp file] ++ (rest ++ after)) t := ht
    rcases hmidway.of_append with ht | ⟨u, hu, ht⟩
    · -- the backup is being made, which leaves the file alone
      refine .inl (ht.contents?_eq fun c hc => ?_)
      rw [List.mem_singleton.1 hc, targetOf, copyPlace_eq hfree]
      exact hfresh
    · -- the backup is there, and nothing that follows writes it
      obtain ⟨v, hv, hnil⟩ := applyAll_cons_iff.1 hu
      obtain rfl := applyAll_nil_iff.1 hnil
      refine .inr (contents?_backupPlace_of_backUp hfree hv (fun c hc => ?_) ht)
      rcases List.mem_append.1 hc with hc | hc
      · obtain ⟨text, rfl⟩ := hrest c hc
        exact Ne.symm hfresh
      · exact (hafter c hc).2

end FileStore

namespace FixProgress.CarriesOut

/-- At every point of a run with backups, what `file` held at first is in it or in its
    `backupPlace`. -/
theorem original_or_backup (h : CarriesOut p w mode s files done plans)
    (ha : s.KeepsApart files) (hb : mode.backups = true) (hf : file ∈ files)
    (ht : s.IsMidway p.changes t) :
    t.contents? file = s.contents? file ∨ t.contents? (backupPlace file) = s.contents? file := by
  obtain ⟨before, block, after, hchanges, hothers, hblock, -⟩ := h.exists_split ha.nodup hf
  have hother : ∀ c ∈ before ++ after, s.fileAt (s.targetOf c) ≠ s.fileAt file ∧
      s.fileAt (s.targetOf c) ≠ s.fileAt (backupPlace file) := by
    intro c hc
    obtain ⟨other, ho, hne, plan, hplan, hc⟩ := hothers c hc
    exact ha.targetOf_ne hf ho hne hplan hc
  have hfirst : block = [] ∨
      ∃ rest, block = .backUp file :: rest ∧ ∀ c ∈ rest, ∃ text, c = .write file text := by
    rcases hblock with hnil | ⟨plan, hplan, hpart⟩
    · exact .inl hnil
    · exact Workspace.eq_nil_or_backUp_first hb hplan hpart
  rw [hchanges] at ht
  rcases ht.of_append with ht | ⟨u, hu, ht⟩
  · -- ahead of the turn of the file
    exact .inl (ht.contents?_eq fun c hc => (hother c (List.mem_append_left after hc)).1)
  · have hufile : u.contents? file = s.contents? file :=
      FileStore.contents?_of_applyAll hu fun c hc => (hother c (List.mem_append_left after hc)).1
    rw [← hufile]
    refine ht.kept_or_copied hfirst ?_ ?_ fun c hc => ?_
    · rw [FileStore.isDirectory_of_applyAll hu]
      exact ha.free file hf
    · rw [FileStore.fileAt_of_applyAll hu]
      exact ha.fresh file hf file hf
    · rw [FileStore.fileAt_of_applyAll hu, FileStore.targetOf_of_applyAll hu]
      exact hother c (List.mem_append_right before hc)

end FixProgress.CarriesOut

/-! ## At the end -/

/-- How a run that has come to its end leaves one of its files, from the store `s` to the store
    `t`. -/
inductive Workspace.Leaves (w : Workspace) (mode : Workspace.FixMode) (s t : FileStore)
    (outcomes : List FixOutcome) (file : Location) : Prop where
  /-- A file that cannot be read stays as it is. -/
  | unread (e : ReadError) (read : s.readText file = .error e)
      (contents : t.contents? file = s.contents? file)
  /-- A source has its outcome, and where that `isChanged`, and files are written at all, the file
      holds what is `fixed`. -/
  | fixed (source : String) (report : FixReport) (read : s.readText file = .ok source)
      (fix : w.linter.fixSource source file.toText mode.limit = .ok report)
      (outcome : report.outcome ∈ outcomes)
      (contents : t.contents? file
        = if report.outcome.isChanged = true ∧ mode.dryRun = false
          then some (Bytes.ofText report.outcome.fixed) else s.contents? file)

/-- The last `write` is what the file holds, by each of the places at which it is found. -/
theorem FileStore.contents?_of_applyAll_write (changes : List Change) {text : String}
    (h : s.applyAll (changes ++ [.write file text]) = .ok t) (hfile : s.isFile other = true)
    (hshared : s.fileAt other = s.fileAt file) :
    t.contents? other = some (Bytes.ofText text) := by
  obtain ⟨u, hu, ht⟩ := applyAll_append_iff.1 h
  obtain ⟨v, hv, hnil⟩ := applyAll_cons_iff.1 ht
  obtain ⟨data, hdata, -, -, -, rfl⟩ := apply_eq_ok_iff.1 hv
  obtain rfl := Option.some.inj hdata
  rw [applyAll_nil_iff.1 hnil, contents?_put]
  refine if_pos ⟨?_, .inl ((isFile_of_applyAll hu other).1 hfile)⟩
  rw [fileAt_of_applyAll hu]
  exact hshared

/-- The changes of `changesFor` leave `o.fixed` in their file, by each of the places at which it is
    found. -/
theorem FileStore.contents?_of_applyAll_changesFor {o : FixOutcome} (hdry : mode.dryRun = false)
    (h : s.applyAll (Workspace.changesFor mode file o) = .ok t) (hfile : s.isFile other = true)
    (hshared : s.fileAt other = s.fileAt file) :
    t.contents? other = some (Bytes.ofText o.fixed) := by
  rw [Workspace.changesFor, if_neg (by simp [hdry])] at h
  split at h
  · exact contents?_of_applyAll_write [.backUp file] h hfile hshared
  · exact contents?_of_applyAll_write [] h hfile hshared

/-- A run without error `Leaves` every file as its outcome says. -/
theorem FixProgress.CarriesOut.leaves (h : CarriesOut p w mode s files done plans)
    (ha : s.KeepsApart files) (hend : p.error = none) (hf : file ∈ files) :
    w.Leaves mode s p.store p.outcomes file := by
  obtain ⟨before, block, after, hchanges, hothers, -, hplanned⟩ := h.exists_split ha.nodup hf
  obtain ⟨plan, hplan, rfl, houtcome⟩ := hplanned hend
  have hother : ∀ c ∈ before ++ after, s.fileAt (s.targetOf c) ≠ s.fileAt file := by
    intro c hc
    obtain ⟨other, ho, hne, plan', hplan', hc⟩ := hothers c hc
    exact (ha.targetOf_ne hf ho hne hplan' hc).1
  -- only the plan for the file itself counts
  have hstore := h.store
  rw [hchanges] at hstore
  obtain ⟨u, hu, hstore⟩ := FileStore.applyAll_append_iff.1 hstore
  obtain ⟨v, hv, hstore⟩ := FileStore.applyAll_append_iff.1 hstore
  have hbefore : u.contents? file = s.contents? file :=
    FileStore.contents?_of_applyAll hu fun c hc => hother c (List.mem_append_left after hc)
  have hafter : p.store.contents? file = v.contents? file := by
    refine FileStore.contents?_of_applyAll hstore fun c hc => ?_
    rw [FileStore.fileAt_of_applyAll hv, FileStore.fileAt_of_applyAll hu,
      FileStore.targetOf_of_applyAll hv, FileStore.targetOf_of_applyAll hu]
    exact hother c (List.mem_append_right before hc)
  rcases Workspace.planFix_eq_ok hplan with ⟨e, hread, -, hno⟩ |
    ⟨source, report, hread, hfix, hout, hch⟩
  · rw [hno] at hv
    rw [FileStore.applyAll_nil_iff.1 hv, hbefore] at hafter
    exact .unread e hread hafter
  · refine .fixed source report hread hfix (houtcome _ hout) ?_
    rw [hch] at hv
    by_cases hwrite : report.outcome.isChanged = true ∧ mode.dryRun = false
    · rw [if_pos hwrite.1] at hv
      obtain ⟨text, htext, -⟩ := FileStore.readText_eq_ok_iff.1 hread
      have hfile : u.isFile file = true := by
        rw [FileStore.isFile, hbefore, htext]
        rfl
      rw [if_pos hwrite, hafter]
      exact FileStore.contents?_of_applyAll_changesFor hwrite.2 hv hfile rfl
    · rw [Workspace.changes_eq_nil hwrite] at hv
      rw [if_neg hwrite, hafter, FileStore.applyAll_nil_iff.1 hv, hbefore]

/-! ## Runs over the files that paths stand for -/

namespace Workspace

theorem fix_store : (w.fix mode s paths).store = (w.fixFiles mode s (w.collect s paths)).store := by
  unfold fix
  dsimp only
  split
  · rfl
  · rfl

theorem fix_changes :
    (w.fix mode s paths).changes = (w.fixFiles mode s (w.collect s paths)).changes := by
  unfold fix
  dsimp only
  split
  · rfl
  · rfl

/-- A run with a `summary` has not ended early, and the summary has all its outcomes. -/
theorem fix_summary_eq_ok {summary : FixSummary} (h : (w.fix mode s paths).summary = .ok summary) :
    (w.fixFiles mode s (w.collect s paths)).error = none ∧
      summary.outcomes = (w.fixFiles mode s (w.collect s paths)).outcomes := by
  unfold fix at h
  dsimp only at h
  split at h
  · cases h
  · next hend =>
    obtain rfl := Except.ok.inj h
    exact ⟨hend, rfl⟩

theorem exists_summary (h : (w.fixFiles mode s (w.collect s paths)).error = none) :
    ∃ summary, (w.fix mode s paths).summary = .ok summary := by
  unfold fix
  dsimp only
  rw [h]
  exact ⟨_, rfl⟩

/-- Whether the backups of the files that `paths` stand for can be made: no directory stands in
    their way, and none of them would be another one of these files. -/
structure HasRoomForBackups (w : Workspace) (s : FileStore) (paths : List String) : Prop where
  free : ∀ file ∈ w.collect s paths, s.isDirectory (backupPlace file) = false
  fresh : ∀ file ∈ w.collect s paths, backupPlace file ∉ w.collect s paths

theorem nodup_collect (w : Workspace) (s : FileStore) (paths : List String) :
    (w.collect s paths).Nodup :=
  Collect.nodup_sources ..

/-- Whether by no link two of the files that `paths` stand for, and of the places of their backups,
    share a file. -/
def SharesNoFile (w : Workspace) (s : FileStore) (paths : List String) : Prop :=
  ∀ place ∈ w.collect s paths ++ (w.collect s paths).map backupPlace,
    ∀ other ∈ w.collect s paths ++ (w.collect s paths).map backupPlace,
      s.fileAt place = s.fileAt other → place = other

/-- In a store without links no two places share a file. -/
theorem sharesNoFile_of_links_eq_nil (hl : s.links = []) (ha : s.aliases = []) :
    w.SharesNoFile s paths := by
  intro place _ other _ heq
  rwa [FileStore.fileAt_of_links_eq_nil hl ha, FileStore.fileAt_of_links_eq_nil hl ha] at heq

theorem HasRoomForBackups.keepsApart (h : w.HasRoomForBackups s paths)
    (halone : w.SharesNoFile s paths) : s.KeepsApart (w.collect s paths) := by
  have hplace : ∀ file ∈ w.collect s paths,
      file ∈ w.collect s paths ++ (w.collect s paths).map backupPlace := fun file hf =>
    List.mem_append_left _ hf
  have hback : ∀ file ∈ w.collect s paths,
      backupPlace file ∈ w.collect s paths ++ (w.collect s paths).map backupPlace := fun file hf =>
    List.mem_append_right _ (List.mem_map_of_mem hf)
  refine ⟨w.nodup_collect s paths, h.free, fun file hf other ho heq => ?_,
    fun file hf other ho heq => ?_, fun file hf other ho heq => ?_⟩
  · exact halone other (hplace other ho) file (hplace file hf) heq
  · exact h.fresh file hf (halone _ (hback file hf) other (hplace other ho) heq ▸ ho)
  · exact Location.eq_of_backupPlace_eq (Collect.isFile_of_mem_sources ho).2.1
      (Collect.isFile_of_mem_sources hf).2.1 (halone _ (hback other ho) _ (hback file hf) heq)

/-- A dry run makes no changes and leaves the store as it is. -/
theorem fix_of_dryRun (hdry : mode.dryRun = true) :
    (w.fix mode s paths).changes = [] ∧ (w.fix mode s paths).store = s := by
  obtain ⟨hstore, hchanges⟩ := w.fixFiles_spec mode s (w.collect s paths)
  have hnil : (w.fixFiles mode s (w.collect s paths)).changes = [] := by
    refine List.eq_nil_iff_forall_not_mem.2 fun c hc => ?_
    rw [(hchanges c hc).1] at hdry
    cases hdry
  rw [hnil] at hstore
  rw [fix_changes, fix_store]
  exact ⟨hnil, FileStore.applyAll_nil_iff.1 hstore⟩

end Workspace

/-- What `run` over `files` does not reach: everything but these and their backups. -/
structure Workspace.FixRun.StaysWithin (run : Workspace.FixRun) (mode : Workspace.FixMode)
    (s : FileStore) (files : List Location) : Prop where
  /-- The `changes` are all that has been done to the store. -/
  store : s.applyAll run.changes = .ok run.store
  /-- Each change backs up one of the files, where that is wanted, or writes it; and there are none
      in a dry run. -/
  changes : ∀ c ∈ run.changes, mode.dryRun = false ∧
    ∃ file ∈ files, mode.backups = true ∧ c = .backUp file ∨ ∃ text, c = .write file text
  /-- At every point, nothing is touched but what is found at the files and, where they are wanted,
      at their backups. -/
  elsewhere : ∀ t, s.IsMidway run.changes t → ∀ place,
    (∀ file ∈ files, s.fileAt file ≠ s.fileAt place) →
    (∀ file ∈ files, mode.backups = true → s.fileAt (backupPlace file) ≠ s.fileAt place) →
    t.contents? place = s.contents? place
  /-- No directory comes or goes. -/
  directories : ∀ place, run.store.isDirectory place = s.isDirectory place
  /-- No link comes or goes. -/
  links : run.store.links = s.links ∧ run.store.aliases = s.aliases

/-- What `run` over `files` never loses. -/
structure Workspace.FixRun.Preserves (run : Workspace.FixRun) (w : Workspace)
    (mode : Workspace.FixMode) (s : FileStore) (files : List Location) : Prop where
  /-- At every point of a run with backups, what a file held at first is in it or in its
      `backupPlace`. -/
  originals : mode.backups = true → ∀ t, s.IsMidway run.changes t → ∀ file ∈ files,
    ∃ data, s.contents? file = some data ∧
      (t.contents? file = some data ∨ t.contents? (backupPlace file) = some data)
  /-- A run that comes to its end `Leaves` every file as its outcome says. -/
  files : ∀ summary, run.summary = .ok summary → ∀ file ∈ files,
    w.Leaves mode s run.store summary.outcomes file

/-- Whether an `Invocation` only looks at files: `check`, `rules`, and `fix` with `dryRun`. -/
def CommandLine.Invocation.isDry : CommandLine.Invocation → Bool
  | .check _ _ => true
  | .fix w _ => w.dryRun
  | .rules _ => true

/-- The store after `fix` is the one before it, or that of a run of `Workspace.fix`. -/
theorem CommandLine.fix_fst (env : Environment) (settings : Settings) (s : FileStore) (w : Wishes)
    (paths : List String) : (fix env settings s w paths).1 = s ∨
      ∃ workspace : Workspace, (fix env settings s w paths).1
        = (workspace.fix w.fixMode s (targets s env.directory paths)).store := by
  unfold fix
  split
  · exact .inl rfl
  · next workspace _ =>
    refine .inr ⟨workspace, ?_⟩
    dsimp only
    split
    · rfl
    · rfl

/-- A call whose invocation `isDry` leaves the store as it is. -/
theorem CommandLine.call_fst_of_isDry (env : Environment) (s : FileStore) (args : List String)
    {invocation : Invocation} (hargs : env.console.read args = some invocation)
    (hdry : invocation.isDry = true) : (call env s args).1 = s := by
  have hinvoke : ∀ settings, (invoke env settings s args).1 = s := by
    intro settings
    unfold invoke
    rw [hargs]
    cases invocation with
    | check w paths => rfl
    | rules id => rfl
    | fix w paths =>
      rcases fix_fst env settings s w paths with hs | ⟨workspace, hs⟩
      · exact hs
      · exact hs.trans (Workspace.fix_of_dryRun hdry).2
  unfold call
  split
  · rfl
  · rfl
  · dsimp only
    split
    · rfl
    · exact hinvoke _

namespace Workspace

/-- With no directory in the way of a backup, a run `StaysWithin` its files and their backups. -/
theorem fix_staysWithin (mode : FixMode)
    (hfree : ∀ file ∈ w.collect s paths, s.isDirectory (backupPlace file) = false) :
    (w.fix mode s paths).StaysWithin mode s (w.collect s paths) := by
  obtain ⟨hstore, hchanges⟩ := w.fixFiles_spec mode s (w.collect s paths)
  rw [← fix_changes] at hchanges
  rw [← fix_changes, ← fix_store] at hstore
  refine ⟨hstore, hchanges, fun t ht place hplace hback => ?_,
    FileStore.isDirectory_of_applyAll hstore, FileStore.links_of_applyAll hstore⟩
  refine ht.contents?_eq fun c hc heq => ?_
  obtain ⟨-, file, hf, ⟨hb, rfl⟩ | ⟨text, rfl⟩⟩ := hchanges c hc
  · rw [FileStore.targetOf, FileStore.copyPlace_eq (hfree file hf)] at heq
    exact hback file hf hb heq
  · exact hplace file hf heq

/-- Calls that are `isDry` leave all files as they are. A run that fixes files `StaysWithin` these
    and their backups, wherever it `HasRoomForBackups`; and if it `SharesNoFile`, it `Preserves`
    them: it never loses what one of them held as long as its backup has not been made, and leaves
    at its end what the outcomes say. -/
theorem keeps_originals (s : FileStore) :
    (∀ (env : CommandLine.Environment) args invocation, env.console.read args = some invocation →
      invocation.isDry = true → (CommandLine.call env s args).1 = s) ∧
    ∀ (w : Workspace) (mode : FixMode) (paths : List String), w.HasRoomForBackups s paths →
      (w.fix mode s paths).StaysWithin mode s (w.collect s paths) ∧
      (w.SharesNoFile s paths → (w.fix mode s paths).Preserves w mode s (w.collect s paths)) := by
  refine ⟨fun env args invocation => CommandLine.call_fst_of_isDry env s args,
    fun w mode paths hroom => ⟨fix_staysWithin mode hroom.free, fun halone => ?_⟩⟩
  have ha := hroom.keepsApart halone
  have hapart : w.Apart mode s (w.collect s paths) := ha.apart
  obtain ⟨done, plans, h⟩ := exists_carriesOut ha.nodup hapart
  refine ⟨fun hb t ht file hf => ?_, fun summary hsummary file hf => ?_⟩
  · obtain ⟨data, hdata⟩ := Option.isSome_iff_exists.1 (Collect.isFile_of_mem_sources hf).1
    rw [fix_changes] at ht
    have hkept := h.original_or_backup ha hb hf ht
    rw [hdata] at hkept
    exact ⟨data, hdata, hkept⟩
  · obtain ⟨hend, houtcomes⟩ := fix_summary_eq_ok hsummary
    rw [houtcomes, fix_store]
    exact h.leaves ha hend hf

end Workspace

/-- A project with `function f() {}` in its one file. -/
def FileStore.emptyFunction : FileStore :=
  { files := [(⟨["p", "a.ts"]⟩, Bytes.ofText "function f() \x7b\x7d")], directories := [] }

/-- A workspace for `FileStore.emptyFunction`. -/
def Workspace.emptyFunction : Workspace :=
  { linter := ⟨⟨{}, .default⟩, .emptyFunction⟩
    settings := { options := {}, exclude := [], extensions := Settings.defaultExtensions }
    directory := ⟨["p"]⟩ }

/-- A run over `function f() {}`, which backs the file up and writes it, and a dry run over it. -/
theorem Workspace.keeps_emptyFunction :
    emptyFunction.collect .emptyFunction ["a.ts"] = [⟨["p", "a.ts"]⟩] ∧
    (emptyFunction.fix {} .emptyFunction ["a.ts"]).changes
      = [.backUp ⟨["p", "a.ts"]⟩, .write ⟨["p", "a.ts"]⟩ "const f = () => \x7b\x7d;"] ∧
    emptyFunction.HasRoomForBackups .emptyFunction ["a.ts"] ∧
    emptyFunction.SharesNoFile .emptyFunction ["a.ts"] ∧
    (emptyFunction.fix {} .emptyFunction ["a.ts"]).StaysWithin {} .emptyFunction
      [⟨["p", "a.ts"]⟩] ∧
    (emptyFunction.fix {} .emptyFunction ["a.ts"]).Preserves emptyFunction {} .emptyFunction
      [⟨["p", "a.ts"]⟩] ∧
    ∀ (directory : Location) (parser : Parser) (settingsParser : SettingsParser),
      (CommandLine.call ⟨directory, parser, settingsParser, Registry.packaged, {}⟩ .emptyFunction
        ["fix", "--dry-run", "a.ts"]).1 = .emptyFunction := by
  have hfiles : emptyFunction.collect .emptyFunction ["a.ts"] = [⟨["p", "a.ts"]⟩] := by
    decide +kernel
  have hroom : emptyFunction.HasRoomForBackups .emptyFunction ["a.ts"] := by
    refine ⟨?_, ?_⟩
    · rw [hfiles]
      decide
    · rw [hfiles]
      decide
  have halone : emptyFunction.SharesNoFile .emptyFunction ["a.ts"] :=
    sharesNoFile_of_links_eq_nil rfl rfl
  obtain ⟨hwithin, hkept⟩ := (keeps_originals .emptyFunction).2 emptyFunction {} ["a.ts"] hroom
  rw [hfiles] at hwithin hkept
  exact ⟨hfiles, by decide +kernel, hroom, halone, hwithin, hkept halone,
    fun directory parser settingsParser => (keeps_originals .emptyFunction).1 _ _
      (.fix { dryRun := true } ["a.ts"]) rfl rfl⟩

/-! ## A file under two names -/

/-- A file with `function f() {}` next to a project, and two links in the project that lead to
it. -/
def FileStore.linkedFunction : FileStore where
  files := [(⟨["q", "f.ts"]⟩, Bytes.ofText "function f() \x7b\x7d")]
  directories := []
  links := [(⟨["p", "a.ts"]⟩, ⟨["q", "f.ts"]⟩), (⟨["p", "b.ts"]⟩, ⟨["q", "f.ts"]⟩)]
  links_end := by decide

/-- A project with `function f() {}` in a file whose name ends as those of backups do. -/
def FileStore.bakFunction : FileStore :=
  { files := [(⟨["p", "x.bak"]⟩, Bytes.ofText "function f() \x7b\x7d")], directories := [] }

namespace Workspace

/-- A workspace for which files with the suffix `.bak` are sources. -/
def bakFunction : Workspace :=
  { emptyFunction with settings := { emptyFunction.settings with extensions := [".bak"] } }

theorem collect_linkedFunction : emptyFunction.collect .linkedFunction ["."]
    = [⟨["p", "a.ts"]⟩, ⟨["p", "b.ts"]⟩] := by
  have hbelow : FileStore.linkedFunction.filesBelow ⟨["p"]⟩
      = [⟨["p", "a.ts"]⟩, ⟨["p", "b.ts"]⟩] :=
    (List.mergeSort_of_pairwise (by decide +kernel)).trans (by decide +kernel)
  have hat : Collect.sourcesAt .linkedFunction ⟨["p"]⟩ Settings.defaultExtensions []
      = [⟨["p", "a.ts"]⟩, ⟨["p", "b.ts"]⟩] := by
    unfold Collect.sourcesAt
    rw [hbelow]
    decide +kernel
  have hpaths : (["."].filter fun p => FileStore.linkedFunction.pathExists ⟨["p"]⟩ (Path.ofText p))
      = ["."] := by decide +kernel
  have hplace : FileStore.linkedFunction.resolve ⟨["p"]⟩ (Path.ofText ".") = ⟨["p"]⟩ := by
    decide +kernel
  show Collect.sources .linkedFunction ⟨["p"]⟩ Settings.defaultExtensions [] ["."] = _
  rw [Collect.sources, hpaths, List.flatMap_singleton, hplace, hat]
  exact (List.mergeSort_of_pairwise (by decide +kernel)).trans (by decide +kernel)

theorem hasRoomForBackups_linkedFunction :
    emptyFunction.HasRoomForBackups .linkedFunction ["."] := by
  refine ⟨?_, ?_⟩
  · rw [collect_linkedFunction]
    decide
  · rw [collect_linkedFunction]
    decide

/-- The run rewrites the file of `linkedFunction` through `a.ts` and finds nothing to do through
    `b.ts`. -/
theorem fix_linkedFunction :
    (∃ summary, (emptyFunction.fix {} .linkedFunction ["."]).summary = .ok summary ∧
      summary.outcomes.map (fun o => (o.path, o.isChanged))
        = [("/p/a.ts", true), ("/p/b.ts", false)]) ∧
    (emptyFunction.fix {} .linkedFunction ["."]).store.contents? ⟨["q", "f.ts"]⟩
      = some (Bytes.ofText "const f = () => \x7b\x7d;") ∧
    (emptyFunction.fix {} .linkedFunction ["."]).store.contents? ⟨["p", "b.ts"]⟩
      = some (Bytes.ofText "const f = () => \x7b\x7d;") ∧
    (emptyFunction.fix {} .linkedFunction ["."]).store.contents? ⟨["p", "b.ts.bak"]⟩ = none := by
  have hend : (emptyFunction.fixFiles {} .linkedFunction
      (emptyFunction.collect .linkedFunction ["."])).error = none := by
    rw [collect_linkedFunction]
    decide +kernel
  obtain ⟨summary, hsummary⟩ := exists_summary hend
  refine ⟨⟨summary, hsummary, ?_⟩, ?_⟩
  · rw [(fix_summary_eq_ok hsummary).2, collect_linkedFunction]
    decide +kernel
  · rw [fix_store, collect_linkedFunction]
    decide +kernel

/-- By their places alone, files are not kept: not if one file is found at two of them, as in
    `linkedFunction`, and not with a source that is named like a backup, as in `bakFunction`. A run
    can lose what is held at a place that has no backup, change what is held there though its
    outcome is unchanged, change what is held at a place of no source and no backup, and write,
    without backups, what is named like one. -/
theorem originals_lost :
    (¬∀ (w : Workspace) (mode : FixMode) (s t : FileStore) (paths : List String),
      w.linter.parser.IsFaithful → w.HasRoomForBackups s paths → mode.backups = true →
      s.IsMidway (w.fix mode s paths).changes t → ∀ file ∈ w.collect s paths,
      t.contents? file = s.contents? file ∨ t.contents? (backupPlace file) = s.contents? file) ∧
    (¬∀ (w : Workspace) (mode : FixMode) (s : FileStore) (paths : List String)
        (summary : FixSummary),
      w.linter.parser.IsFaithful → w.HasRoomForBackups s paths →
      (w.fix mode s paths).summary = .ok summary →
      ∀ file ∈ w.collect s paths, (file.toText, false) ∈ summary.outcomes.map
        (fun o => (o.path, o.isChanged)) →
      (w.fix mode s paths).store.contents? file = s.contents? file) ∧
    (¬∀ (w : Workspace) (mode : FixMode) (s : FileStore) (paths : List String) (place : Location),
      w.linter.parser.IsFaithful → w.HasRoomForBackups s paths →
      (∀ file ∈ w.collect s paths, place ≠ file ∧ place ≠ backupPlace file) →
      (w.fix mode s paths).store.contents? place = s.contents? place) ∧
    ¬∀ (w : Workspace) (mode : FixMode) (s : FileStore) (paths : List String) (file : Location)
        (text : String),
      w.linter.parser.IsFaithful → w.HasRoomForBackups s paths → mode.backups = false →
      .write file text ∈ (w.fix mode s paths).changes → ¬".bak".toList <:+ file.name.toList := by
  have hfaithful : emptyFunction.linter.parser.IsFaithful := Parser.isFaithful_emptyFunction
  have hroom := hasRoomForBackups_linkedFunction
  obtain ⟨⟨summary, hsummary, houtcomes⟩, hfile, hsecond, hbackup⟩ := fix_linkedFunction
  have hmem : ⟨["p", "b.ts"]⟩ ∈ emptyFunction.collect .linkedFunction ["."] := by
    rw [collect_linkedFunction]
    decide
  have hchanged : some (Bytes.ofText "const f = () => \x7b\x7d;")
      ≠ FileStore.linkedFunction.contents? ⟨["p", "b.ts"]⟩ := by decide +kernel
  refine ⟨fun hkept => ?_, fun hkept => ?_, fun hkept => ?_, fun hkept => ?_⟩
  · have hmidway : FileStore.linkedFunction.IsMidway
        (emptyFunction.fix {} .linkedFunction ["."]).changes
        (emptyFunction.fix {} .linkedFunction ["."]).store := by
      rw [fix_changes, fix_store]
      exact FileStore.isMidway_of_applyAll (emptyFunction.fixFiles_spec {} _ _).1
    rcases hkept emptyFunction {} _ _ ["."] hfaithful hroom rfl hmidway _ hmem with hthere | hthere
    · exact hchanged (hsecond.symm.trans hthere)
    · exact absurd (hbackup.symm.trans hthere) (by decide +kernel)
  · have hthere := hkept emptyFunction {} _ _ summary hfaithful hroom hsummary _ hmem
      (by rw [houtcomes]; decide)
    exact hchanged (hsecond.symm.trans hthere)
  · have hthere := hkept emptyFunction {} _ ["."] ⟨["q", "f.ts"]⟩ hfaithful hroom
      (by rw [collect_linkedFunction]; decide)
    exact absurd (hfile.symm.trans hthere) (by decide +kernel)
  · have hfiles : bakFunction.collect .bakFunction ["x.bak"] = [⟨["p", "x.bak"]⟩] := by
      decide +kernel
    have hroom : bakFunction.HasRoomForBackups .bakFunction ["x.bak"] := by
      refine ⟨?_, ?_⟩
      · rw [hfiles]
        decide
      · rw [hfiles]
        decide
    have hwritten : .write ⟨["p", "x.bak"]⟩ "const f = () => \x7b\x7d;"
        ∈ (bakFunction.fix { backups := false } .bakFunction ["x.bak"]).changes := by
      rw [fix_changes, hfiles]
      decide +kernel
    exact hkept bakFunction { backups := false } .bakFunction ["x.bak"] _ _ hfaithful hroom rfl
      hwritten (by decide)

end Workspace

end ArrowLint
