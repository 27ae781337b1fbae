/-
  ArrowLint.Proofs.Store.LetterCase

  What the case of letters does to the files of a run. The suffix of a name is read in small
  letters, so its case does not matter for itself. But the ending of files that only declare is read
  as it is written, so such a file is collected once its ending is written in other letters; and an
  extension that is asked for in capitals is met by no file.

  `Workspace.collect_by_letter_case` says this of every file of a store and every list of
  extensions; `Workspace.letter_case_matters` gives a file and an extension of this kind.
-/

import Mathlib.Data.List.Forall2
import ArrowLint.Proofs.Store.Sources
import ArrowLint.Proofs.Text.LowerCase

namespace ArrowLint

open Text (IsRecasing capitalSigma)

/-! ## The case of a suffix -/

/-- What stands behind the last point of names that differ in case differs in case, too. -/
theorem map_lowerChar_ending {name other : String} (h : IsRecasing name other) :
    (name.toList.reverse.takeWhile (· != '.')).map Text.lowerChar
      = (other.toList.reverse.takeWhile (· != '.')).map Text.lowerChar := by
  -- a point is known by its small form
  have hpoint : (fun c : Char => c != '.') = (· != ['.']) ∘ Text.lowerChar := by
    funext c
    rw [Function.comp_apply, Bool.eq_iff_iff, bne_iff_ne, bne_iff_ne, Ne, Ne,
      Text.lowerChar_eq_point_iff]
  rw [hpoint, ← List.takeWhile_map, ← List.takeWhile_map, List.map_reverse, List.map_reverse, h]

/-- Names that differ in case have suffixes (`suffixOf`) that differ in case. -/
theorem isRecasing_suffixOf {name other : String} (h : IsRecasing name other) :
    IsRecasing (suffixOf name) (suffixOf other) := by
  have hending := map_lowerChar_ending h
  have hlength : name.toList.length = other.toList.length := by
    simpa using congrArg List.length h
  unfold suffixOf
  dsimp only
  generalize name.toList.reverse.takeWhile (· != '.') = ending at hending ⊢
  generalize other.toList.reverse.takeWhile (· != '.') = ending' at hending ⊢
  have hlength' : ending.length = ending'.length := by
    simpa using congrArg List.length hending
  have hempty : ending.isEmpty = ending'.isEmpty := by
    rw [Bool.eq_iff_iff, List.isEmpty_iff_length_eq_zero, List.isEmpty_iff_length_eq_zero, hlength']
  rw [hempty, hlength, hlength']
  split
  · rfl
  · simp only [IsRecasing, String.toList_ofList, List.map_cons, List.map_reverse, hending]

/-- The suffix of a name that ends in `.d.ts` is `.ts`. -/
theorem suffixOf_of_declares {name : String} (h : ".d.ts".toList <:+ name.toList) :
    suffixOf name = ".ts" := by
  obtain ⟨stem, hstem⟩ := h
  have hreverse : name.toList.reverse = 's' :: 't' :: '.' :: 'd' :: '.' :: stem.reverse := by
    rw [← hstem, List.reverse_append]
    rfl
  have hending : name.toList.reverse.takeWhile (· != '.') = ['s', 't'] := by
    rw [hreverse]
    rfl
  have hlength : name.toList.length = stem.length + 5 := by
    rw [← hstem, List.length_append]
    rfl
  unfold suffixOf
  dsimp only
  rw [hending, if_neg (by simp [hlength])]
  rfl

namespace Collect

variable {extensions others : List String} {name other : String}

/-- Of names that differ in case, either both are those of sources or none is, if both end in
    `.d.ts` or none does. -/
theorem isNameOfSource_recased (h : IsRecasing name other)
    (hsigma : capitalSigma ∉ (suffixOf name).toList)
    (hsigma' : capitalSigma ∉ (suffixOf other).toList)
    (hdeclares : ".d.ts".toList <:+ name.toList ↔ ".d.ts".toList <:+ other.toList) :
    IsNameOfSource extensions name ↔ IsNameOfSource extensions other := by
  have hsuffix : Text.lower (suffixOf name) ∈ extensions ↔
      Text.lower (suffixOf other) ∈ extensions := by
    rw [(isRecasing_suffixOf h).lower_eq hsigma hsigma']
  constructor
  · intro hname
    exact ⟨mt hdeclares.2 hname.declares_more, hsuffix.1 hname.suffix⟩
  · intro hother
    exact ⟨mt hdeclares.1 hother.declares_more, hsuffix.2 hother.suffix⟩

/-- A name that ends in `.d.ts` is that of a source once it is written in letters that hide this, if
    `.ts` is among the `extensions`. -/
theorem isNameOfSource_of_hidden (h : IsRecasing name other)
    (hsigma : capitalSigma ∉ (suffixOf other).toList)
    (hdeclares : ".d.ts".toList <:+ name.toList) (hhidden : ¬".d.ts".toList <:+ other.toList) :
    IsNameOfSource extensions other ↔ ".ts" ∈ extensions := by
  have hsuffix := isRecasing_suffixOf h
  rw [suffixOf_of_declares hdeclares] at hsuffix
  have hlower : Text.lower (suffixOf other) = ".ts" := by
    rw [← hsuffix.lower_eq (by decide) hsigma]
    decide +kernel
  constructor
  · intro hother
    rw [← hlower]
    exact hother.suffix
  · intro hts
    rw [← hlower] at hts
    exact ⟨hhidden, hts⟩

/-- Extensions that are not written in small letters are met by no name. -/
theorem isSourceName_congr (h : ∀ e, Text.lower e = e → (e ∈ others ↔ e ∈ extensions)) :
    isSourceName others = isSourceName extensions := by
  funext name
  rw [Bool.eq_iff_iff, isSourceName_iff, isSourceName_iff]
  have hsmall := h (Text.lower (suffixOf name)) (Text.lower_lower _)
  exact ⟨fun hname => ⟨hname.declares_more, hsmall.1 hname.suffix⟩,
    fun hname => ⟨hname.declares_more, hsmall.2 hname.suffix⟩⟩

/-- Only the extensions that are written in small letters decide on the `sources`. -/
theorem sources_extensions_congr {s : FileStore} {directory : Location}
    {fragments paths : List String}
    (h : ∀ e, Text.lower e = e → (e ∈ others ↔ e ∈ extensions)) :
    sources s directory others fragments paths
      = sources s directory extensions fragments paths := by
  unfold sources sourcesAt
  rw [isSourceName_congr h]

end Collect

/-! ## Renaming a file -/

namespace Location

variable {l above : Location}

theorem isBelow_iff_isPrefix_parent (h : l.names ≠ []) :
    l.isBelow above = true ↔ above.names <+: l.parent.names := by
  refine ⟨isPrefix_parent_of_isBelow, fun hp => isBelow_iff.2 ⟨?_, ?_⟩⟩
  · rw [names_eq_of_ne_nil h]
    exact hp.trans (List.prefix_append _ _)
  · have hle := hp.length_le
    rw [names_eq_of_ne_nil h, List.length_append, List.length_singleton]
    omega

end Location

namespace FileStore

/-- The `place` by its other name, if it is `file` and gets `name` in its directory. -/
def renamed (file : Location) (name : String) (place : Location) : Location :=
  if place == file then file.parent.child name else place

/-- The store with another `name` for `file`. Symbolic links lead where they did. -/
def rename (s : FileStore) (file : Location) (name : String) : FileStore :=
  { s with
    files := s.files.map fun f => (renamed file name f.1, f.2)
    aliases := s.aliases.map fun a => (renamed file name a.1, renamed file name a.2) }

variable {s : FileStore} {file place : Location} {name : String}

theorem renamed_self : renamed file name file = file.parent.child name :=
  if_pos (beq_self_eq_true file)

/-- Where no link leads from the old name or the new one, the renamed file is found by the new
    one. -/
theorem mem_entries_rename (hreal : s.real file = file)
    (hnew : s.real (file.parent.child name) = file.parent.child name)
    (h : s.isFile file = true) :
    file.parent.child name ∈ (s.rename file name).entries ∧
      (s.rename file name).isFile (file.parent.child name) = true := by
  obtain ⟨data, hf⟩ := isFile_iff.1 h
  rw [hreal] at hf
  have hmem : (file.parent.child name, data) ∈ (s.rename file name).files :=
    List.mem_map.2 ⟨_, hf, by rw [renamed_self]⟩
  refine ⟨List.mem_append_left _ (List.mem_map_of_mem hmem), isFile_iff.2 ⟨data, ?_⟩⟩
  rwa [show (s.rename file name).real (file.parent.child name) = _ from hnew]

/-- Renaming a file leaves the directories as they are. -/
theorem isDirectory_rename (h : file.names ≠ []) :
    (s.rename file name).isDirectory place = s.isDirectory place := by
  have hsame : ∀ f : Location × Bytes,
      (renamed file name f.1).isBelow (s.real place) = f.1.isBelow (s.real place) := by
    intro f
    unfold renamed
    split
    · next hf =>
      rw [Bool.eq_iff_iff, beq_iff_eq.1 hf, Location.isBelow_iff_isPrefix_parent h,
        Location.isBelow_iff_isPrefix_parent (by simp [Location.child]), Location.parent_child]
    · rfl
  have hreal : (s.rename file name).real place = s.real place := rfl
  rw [isDirectory, isDirectory, hreal]
  simp only [hasDirectory, entries, rename, List.any_append, List.any_map, Function.comp_def, hsame]

/-- In a store with the same directories and links, a path `Reaches` the same directories. -/
theorem reaches_congr {t : FileStore} {directory start : Location} {path : Path}
    (hl : t.links = s.links) (hd : ∀ place, t.isDirectory place = s.isDirectory place)
    (hstart : s.isDirectory start = true) (h : s.Reaches directory path start) :
    t.Reaches directory path start := by
  refine ⟨follow_eq_ok_iff.1 (Collect.follow_congr hl hd (follow_eq_ok_iff.2 h.walks)), ?_⟩
  rw [has, hd, hstart, Bool.or_true]

end FileStore

/-! ## Searching directories -/

namespace Collect

variable {s : FileStore} {directory file place : Location} {extensions paths : List String}

/-- Whether every one of `paths` leads to a directory. -/
def AreDirectories (s : FileStore) (directory : Location) (paths : List String) : Prop :=
  ∀ path ∈ paths, ∃ start, s.Reaches directory (Path.ofText path) start ∧
    s.isDirectory start = true

/-- Whether a search from `paths` comes into the directory `place`: one of them leads to it, or to
    one above it from which no directory is skipped on the way. -/
def IsVisited (s : FileStore) (directory : Location) (paths : List String) (place : Location) :
    Prop :=
  ∃ path ∈ paths, ∃ start names, s.Reaches directory (Path.ofText path) start ∧
    s.isDirectory start = true ∧ place.names = start.names ++ names ∧
    ∀ name ∈ names, name ∉ ["node_modules", ".git", "dist", "build"]

theorem areDirectories_congr {t : FileStore} (hl : t.links = s.links)
    (hd : ∀ place, t.isDirectory place = s.isDirectory place)
    (h : AreDirectories s directory paths) : AreDirectories t directory paths := by
  intro path hpath
  obtain ⟨start, reaches, hstart⟩ := h path hpath
  exact ⟨start, FileStore.reaches_congr hl hd hstart reaches, by rw [hd, hstart]⟩

theorem isVisited_congr {t : FileStore} (hl : t.links = s.links)
    (hd : ∀ place, t.isDirectory place = s.isDirectory place)
    (h : IsVisited s directory paths place) : IsVisited t directory paths place := by
  obtain ⟨path, hpath, start, names, reaches, hstart, heq, hvisited⟩ := h
  exact ⟨path, hpath, start, names, FileStore.reaches_congr hl hd hstart reaches,
    by rw [hd, hstart], heq, hvisited⟩

/-- The `sources` of directories are the files with names of sources in the directories that are
    visited. -/
theorem mem_sources_iff_isVisited (h : AreDirectories s directory paths) (hroot : file.names ≠ []) :
    file ∈ sources s directory extensions [] paths ↔
      file ∈ s.entries ∧ s.isFile file = true ∧ IsNameOfSource extensions file.name ∧
        IsVisited s directory paths file.parent := by
  rw [mem_sources_iff]
  constructor
  · rintro ⟨path, hpath, -, hat⟩
    obtain ⟨start, reaches, hstart⟩ := h path hpath
    rw [reaches.resolve_eq] at hat
    obtain ⟨hentry, hfile, hname, names, hne, heq, hexcluded⟩ :=
      (mem_sourcesAt_iff_of_isDirectory hstart).1 hat
    obtain ⟨hvisited, -⟩ := isExcluded_eq_false_iff.1 hexcluded
    refine ⟨hentry, hfile, isSourceName_iff.1 hname, path, hpath, start, names.dropLast, reaches,
      hstart, ?_, hvisited⟩
    rw [Location.parent, heq, List.dropLast_append_of_ne_nil hne]
  · rintro ⟨hentry, hfile, hname, path, hpath, start, names, reaches, hstart, heq, hvisited⟩
    refine ⟨path, hpath, FileStore.pathExists_iff.2 ⟨start, reaches⟩, ?_⟩
    rw [reaches.resolve_eq, mem_sourcesAt_iff_of_isDirectory hstart]
    -- the last of the names is that of the file, and only those ahead of it can be skipped
    refine ⟨hentry, hfile, isSourceName_iff.2 hname, names ++ [file.name], by simp, ?_,
      isExcluded_eq_false_iff.2 ⟨?_, fun fragment hfragment => by cases hfragment⟩⟩
    · rw [Location.names_eq_of_ne_nil hroot, heq, List.append_assoc]
    · rwa [List.dropLast_concat]

/-- A renamed file is collected just when its new `name` is that of a source and the directory in
    which it stands `IsVisited`. -/
theorem mem_sources_rename_iff (file : Location) (name : String) (hreal : s.real file = file)
    (hnew : s.real (file.parent.child name) = file.parent.child name)
    (h : AreDirectories s directory paths) (hfile : s.isFile file = true)
    (hroot : file.names ≠ []) :
    file.parent.child name ∈ sources (s.rename file name) directory extensions [] paths ↔
      IsNameOfSource extensions name ∧ IsVisited s directory paths file.parent := by
  have hd : ∀ place, (s.rename file name).isDirectory place = s.isDirectory place := fun place =>
    FileStore.isDirectory_rename hroot
  have hl : (s.rename file name).links = s.links := rfl
  rw [mem_sources_iff_isVisited (areDirectories_congr hl hd h) (by simp [Location.child]),
    Location.name_child, Location.parent_child]
  constructor
  · rintro ⟨-, -, hname, hvisited⟩
    exact ⟨hname, isVisited_congr hl.symm (fun place => (hd place).symm) hvisited⟩
  · rintro ⟨hname, hvisited⟩
    obtain ⟨hentry, hthere⟩ := FileStore.mem_entries_rename hreal hnew hfile
    exact ⟨hentry, hthere, hname, isVisited_congr hl hd hvisited⟩

end Collect

namespace Workspace

/-- The workspace `w` with other `extensions`. -/
def withExtensions (w : Workspace) (extensions : List String) : Workspace :=
  { w with settings := { w.settings with extensions := extensions } }

/-- Of the files in some directories, one to which no link leads by its old name or its new one is
    collected in any case of its name or in none, as long as its name ends in `.d.ts` in all of them
    or in none; one that only declares is collected in every other case in which sources of its
    suffix are. The `extensions` count only if they are written in small letters: those that are not
    make no difference. -/
theorem collect_by_letter_case (w : Workspace) {s : FileStore} (file : Location) (name : String)
    {paths : List String} (hexclude : w.settings.exclude = [])
    (hpaths : Collect.AreDirectories s w.directory paths) (hfile : s.isFile file = true)
    (hroot : file.names ≠ []) (hreal : s.real file = file)
    (hnew : s.real (file.parent.child name) = file.parent.child name)
    (hcase : IsRecasing file.name name)
    (hsigma : capitalSigma ∉ (suffixOf file.name).toList)
    (hsigma' : capitalSigma ∉ (suffixOf name).toList) :
    ((".d.ts".toList <:+ file.name.toList ↔ ".d.ts".toList <:+ name.toList) →
      (file.parent.child name ∈ w.collect (s.rename file name) paths ↔
        file ∈ w.collect s paths)) ∧
    (".d.ts".toList <:+ file.name.toList → ¬".d.ts".toList <:+ name.toList →
      file ∉ w.collect s paths ∧
      (file.parent.child name ∈ w.collect (s.rename file name) paths ↔
        ".ts" ∈ w.settings.extensions ∧
          Collect.IsVisited s w.directory paths file.parent)) ∧
    ∀ others, (∀ e, Text.lower e = e → (e ∈ others ↔ e ∈ w.settings.extensions)) →
      (w.withExtensions others).collect s paths = w.collect s paths := by
  have hold : file ∈ w.collect s paths ↔
      Collect.IsNameOfSource w.settings.extensions file.name ∧
        Collect.IsVisited s w.directory paths file.parent := by
    rw [collect, hexclude, Collect.mem_sources_iff_isVisited hpaths hroot,
      and_iff_right (FileStore.mem_entries_of_isFile hreal hfile), and_iff_right hfile]
  have hrenamed : file.parent.child name ∈ w.collect (s.rename file name) paths ↔
      Collect.IsNameOfSource w.settings.extensions name ∧
        Collect.IsVisited s w.directory paths file.parent := by
    rw [collect, hexclude,
      Collect.mem_sources_rename_iff file name hreal hnew hpaths hfile hroot]
  refine ⟨fun hdeclares => ?_, fun hdeclares hhidden => ⟨fun hmem => ?_, ?_⟩, fun others h => ?_⟩
  · rw [hrenamed, hold, Collect.isNameOfSource_recased hcase hsigma hsigma' hdeclares]
  · exact (hold.1 hmem).1.declares_more hdeclares
  · rw [hrenamed, Collect.isNameOfSource_of_hidden hcase hsigma' hdeclares hhidden]
  · exact Collect.sources_extensions_congr h

end Workspace

/-! ## A project in two cases -/

/-- A project with a source and a file `a.d.ts` that only declares. -/
def FileStore.declaredProject : FileStore where
  files := [(⟨["p", "a.d.ts"]⟩, []), (⟨["p", "b.ts"]⟩, [])]
  directories := []

/-- A run over `FileStore.declaredProject`. -/
def Workspace.declaredProject : Workspace where
  linter := ⟨⟨{}, .default⟩, .emptyFunction⟩
  settings := { options := {}, exclude := [], extensions := [".ts"] }
  directory := ⟨["p"]⟩

namespace Collect

theorem reaches_declaredProject :
    FileStore.declaredProject.Reaches ⟨["p"]⟩ (Path.ofText ".") ⟨["p"]⟩ :=
  ⟨.stay _, by decide +kernel⟩

theorem areDirectories_declaredProject :
    AreDirectories .declaredProject Workspace.declaredProject.directory ["."] := by
  intro path hpath
  rw [List.mem_singleton.1 hpath]
  exact ⟨⟨["p"]⟩, reaches_declaredProject, by decide +kernel⟩

theorem isVisited_declaredProject :
    IsVisited .declaredProject Workspace.declaredProject.directory ["."] ⟨["p"]⟩ :=
  ⟨".", List.mem_singleton_self _, ⟨["p"]⟩, [], reaches_declaredProject, by decide +kernel, rfl,
    fun name hname => by cases hname⟩

end Collect

namespace Workspace

/-- The file `a.d.ts` is collected under the name `a.D.TS`, and the extension has to be in small
    letters. -/
theorem collect_by_letter_case_declared :
    (⟨["p", "a.d.ts"]⟩ : Location) ∉ declaredProject.collect .declaredProject ["."] ∧
    (⟨["p", "a.D.TS"]⟩ : Location) ∈
      declaredProject.collect (FileStore.declaredProject.rename ⟨["p", "a.d.ts"]⟩ "a.D.TS") ["."] ∧
    (declaredProject.withExtensions [".ts", ".TS"]).collect .declaredProject ["."]
      = declaredProject.collect .declaredProject ["."] := by
  obtain ⟨-, hdeclares, hextensions⟩ := collect_by_letter_case declaredProject
    ⟨["p", "a.d.ts"]⟩ "a.D.TS" rfl Collect.areDirectories_declaredProject
    (by decide +kernel) (by decide) rfl rfl (by decide +kernel) (by decide +kernel)
    (by decide +kernel)
  obtain ⟨hold, hnew⟩ := hdeclares (by decide) (by decide)
  refine ⟨hold, hnew.2 ⟨by decide, Collect.isVisited_declaredProject⟩, hextensions _ ?_⟩
  intro e he
  have hcapital : e ≠ ".TS" := by
    rintro rfl
    exact absurd he (by decide +kernel)
  simp [declaredProject, hcapital]

/-- A file is lost or won by the case of its name, and another one by the case of the extension. -/
theorem letter_case_matters :
    (¬ ∀ (w : Workspace) (s : FileStore) (file : Location) (name : String) (paths : List String),
      w.settings.exclude = [] → Collect.AreDirectories s w.directory paths →
      s.isFile file = true → file.names ≠ [] → IsRecasing file.name name →
      (file.parent.child name ∈ w.collect (s.rename file name) paths ↔
        file ∈ w.collect s paths)) ∧
    ¬ ∀ (w : Workspace) (s : FileStore) (paths others : List String),
      w.settings.exclude = [] → Collect.AreDirectories s w.directory paths →
      List.Forall₂ IsRecasing others w.settings.extensions →
      (w.withExtensions others).collect s paths = w.collect s paths := by
  refine ⟨fun h => ?_, fun h => ?_⟩
  · have hsame := h declaredProject .declaredProject ⟨["p", "a.d.ts"]⟩ "a.D.TS" ["."] rfl
      Collect.areDirectories_declaredProject (by decide +kernel) (by decide) (by decide +kernel)
    have hname : Collect.IsNameOfSource [".ts"] "a.D.TS" :=
      Collect.isSourceName_iff.1 (by decide +kernel)
    have hnew := (Collect.mem_sources_rename_iff ⟨["p", "a.d.ts"]⟩ "a.D.TS" rfl rfl
      Collect.areDirectories_declaredProject (by decide +kernel) (by decide)).2
      ⟨hname, Collect.isVisited_declaredProject⟩
    have hold := (Collect.mem_sources_iff_isVisited Collect.areDirectories_declaredProject
      (by decide)).1 (hsame.1 hnew)
    exact hold.2.2.1.declares_more (by decide)
  · have hsame := h declaredProject .declaredProject ["."] [".TS"] rfl
      Collect.areDirectories_declaredProject (.cons (by decide +kernel) .nil)
    have hname : Collect.IsNameOfSource [".ts"] "b.ts" :=
      Collect.isSourceName_iff.1 (by decide +kernel)
    have hmem : (⟨["p", "b.ts"]⟩ : Location) ∈
        (declaredProject.withExtensions [".TS"]).collect .declaredProject ["."] := by
      rw [hsame]
      exact (Collect.mem_sources_iff_isVisited Collect.areDirectories_declaredProject
        (by decide)).2
          ⟨by decide +kernel, by decide +kernel, hname, Collect.isVisited_declaredProject⟩
    have hnone := (Collect.mem_sources_iff_isVisited Collect.areDirectories_declaredProject
      (by decide)).1 hmem
    exact absurd (Collect.isSourceName_iff.2 hnone.2.2.1) (by decide +kernel)

end Workspace

end ArrowLint
