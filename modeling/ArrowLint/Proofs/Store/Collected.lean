/-
  ArrowLint.Proofs.Store.Collected

  Which files a run is over, said of one file at a time (`Collect.mem_sources_iff`). Each of them
  is a file of the store, is met once, and has a name; so no two of them share the place of
  their backups (`Location.eq_of_backupPlace_eq`). With the same directories and the same
  sources, another store gives the same files (`Collect.mem_sources_congr`).
-/

import ArrowLint.Collect
import ArrowLint.Proofs.Store.Contents

namespace ArrowLint

/-! ## Places of backups -/

namespace Location

theorem names_eq_of_ne_nil {l : Location} (h : l.names ≠ []) :
    l.names = l.parent.names ++ [l.name] := by
  show l.names = l.names.dropLast ++ [l.names.getLast?.getD ""]
  rw [List.getLast?_eq_some_getLast h, Option.getD_some, List.dropLast_concat_getLast]

theorem parent_child (l : Location) (name : String) : (l.child name).parent = l := by
  cases l
  simp [child, parent]

theorem name_child (l : Location) (name : String) : (l.child name).name = name := by
  simp [child, Location.name]

/-- Files with names have a different `backupPlace` each. -/
theorem eq_of_backupPlace_eq {l other : Location} (hl : l.names ≠ []) (ho : other.names ≠ [])
    (h : FileStore.backupPlace l = FileStore.backupPlace other) : l = other := by
  have hparent : l.parent = other.parent := by
    have hp := congrArg Location.parent h
    rwa [FileStore.backupPlace, FileStore.backupPlace, parent_child, parent_child] at hp
  have hname : l.name = other.name := by
    have hn := congrArg Location.name h
    rw [FileStore.backupPlace, FileStore.backupPlace, name_child, name_child] at hn
    exact (String.append_left_inj ".bak").1 hn
  apply eq_of_names_eq
  rw [names_eq_of_ne_nil hl, names_eq_of_ne_nil ho, hparent, hname]

end Location

/-! ## Paths that lead somewhere -/

namespace FileStore

variable {s : FileStore} {place : Location} {directory : Location} {path : Path}

theorem follow_eq_ok {start : Location} {names : List String}
    (h : s.follow start names = .ok place) : place = names.foldl s.step start := by
  induction names generalizing start with
  | nil => exact (Except.ok.inj h).symm
  | cons name names ih =>
    unfold follow at h
    split at h
    · exact ih h
    · split at h
      · cases h
      · cases h

/-- A path that leads to something leads to the place that `resolve` gives for it. -/
theorem has_of_pathExists (h : s.pathExists directory path = true) :
    s.has (s.resolve directory path) = true := by
  unfold pathExists at h
  split at h
  · next place hfind =>
    rw [resolve, ← follow_eq_ok hfind]
    exact h
  · cases h

theorem step_congr {t : FileStore} (h : t.links = s.links) : t.step = s.step := by
  funext place name
  rw [step, step, throughLink, throughLink, h]

end FileStore

/-! ## The files of a run -/

namespace Collect

variable {s : FileStore} {place file directory : Location}
  {extensions fragments paths : List String}

/-- The sources that a `place` stands for: those below it if it is a directory, else itself. -/
theorem mem_sourcesAt_iff : file ∈ sourcesAt s place extensions fragments ↔
    (if s.isDirectory place = true then
        file ∈ s.entries ∧ s.isFile file = true ∧ file.isBelow place = true
      else file = place) ∧
    isSourceName extensions file.name = true ∧
    isExcluded fragments (file.names.drop
      (if s.isDirectory place = true then place else place.parent).names.length) = false := by
  unfold sourcesAt
  by_cases hd : s.isDirectory place = true
  · simp only [hd, if_true, List.mem_filter, FileStore.filesBelow, List.mem_mergeSort,
      Bool.and_eq_true, Bool.not_eq_true', and_comm (a := s.isFile file = true)]
  · simp only [hd, List.mem_filter, Bool.and_eq_true, Bool.not_eq_true']
    simp

theorem mem_sorted_iff {places : List Location} : file ∈ sorted places ↔ file ∈ places := by
  rw [sorted, List.mem_mergeSort, List.mem_eraseDups]

/-- The list `sources` has the files that `sourcesAt` gives for the places of those paths which lead
    somewhere. -/
theorem mem_sources_iff : file ∈ sources s directory extensions fragments paths ↔
    ∃ p ∈ paths, s.pathExists directory (Path.ofText p) = true ∧
      file ∈ sourcesAt s (s.resolve directory (Path.ofText p)) extensions fragments := by
  simp only [sources, mem_sorted_iff, List.mem_flatMap, List.mem_filter, and_assoc]

/-- Each of the `sources` is a file of the store, has a name, and has it for a source. -/
theorem isFile_of_mem_sources
    (h : file ∈ sources s directory extensions fragments paths) :
    s.isFile file = true ∧ file.names ≠ [] ∧ isSourceName extensions file.name = true := by
  obtain ⟨p, -, hexists, hat⟩ := mem_sources_iff.1 h
  obtain ⟨hplace, hname, -⟩ := mem_sourcesAt_iff.1 hat
  by_cases hd : s.isDirectory (s.resolve directory (Path.ofText p)) = true
  · rw [if_pos hd] at hplace
    obtain ⟨-, hfile, hbelow⟩ := hplace
    refine ⟨hfile, fun hnil => ?_, hname⟩
    have hlt := (Location.isBelow_iff.1 hbelow).2
    rw [hnil] at hlt
    exact absurd hlt (Nat.not_lt_zero _)
  · rw [if_neg hd] at hplace
    -- something is there, and no directory; in particular this is not the root
    have hhas := FileStore.has_of_pathExists hexists
    rw [FileStore.has, Bool.or_eq_true] at hhas
    refine ⟨hplace ▸ hhas.resolve_right hd, fun hnil => hd ?_, hname⟩
    exact FileStore.isDirectory_of_names_eq_nil (hplace ▸ hnil)

/-! ## The same files -/

/-- In a store with the same directories and links, `follow` leads to the same places. -/
theorem follow_congr {t : FileStore} (hl : t.links = s.links)
    (hd : ∀ place, t.isDirectory place = s.isDirectory place)
    {start : Location} {names : List String} (h : s.follow start names = .ok place) :
    t.follow start names = .ok place := by
  induction names generalizing start with
  | nil => exact h
  | cons name names ih =>
    unfold FileStore.follow at h ⊢
    rw [hd]
    split at h
    · next hdir =>
      rw [if_pos hdir, FileStore.step_congr hl]
      exact ih h
    · split at h
      · cases h
      · cases h

theorem nodup_eraseDups (places : List Location) : places.eraseDups.Nodup := by
  -- on the number of places, since those like the first go all at once
  induction hn : places.length using Nat.strongRecOn generalizing places with
  | ind n ih =>
    cases places with
    | nil => simp
    | cons l rest =>
      rw [List.eraseDups_cons, List.nodup_cons]
      refine ⟨by simp, ih _ ?_ _ rfl⟩
      have hle := List.length_filter_le (fun other => !other == l) rest
      rw [List.length_cons] at hn
      omega

/-- No file is twice among the `sources`. -/
theorem nodup_sources (s : FileStore) (directory : Location)
    (extensions fragments paths : List String) :
    (sources s directory extensions fragments paths).Nodup := by
  unfold sources sorted
  exact (List.mergeSort_perm _ _).nodup_iff.2 (nodup_eraseDups _)

end Collect

end ArrowLint
