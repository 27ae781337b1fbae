/-
  ArrowLint.Proofs.Store.Sources

  The sources that a run collects, said of the tree of files alone. A path offers the file that it
  leads to, and the files below the directory that it leads to (`Collect.Offers`); what counts in
  a file's favour or against it is read off the names between the two. The sources are the files
  that some path offers (`Collect.mem_sources_iff_offers`), each once and in the order of their
  texts (`Collect.pairwise_sources`), so the list depends on nothing but which paths are given
  (`Collect.sources_congr`).
-/

import ArrowLint.Proofs.Store.Collected
import ArrowLint.Proofs.Syntax.Parsed
import ArrowLint.Run

namespace ArrowLint

/-! ## Trees of files -/

/-- Whether `name` leads on as it is written: it is neither empty nor a single point, and there is
    no slash in it. -/
structure IsPlainName (name : String) : Prop where
  ne_empty : name ≠ ""
  ne_point : name ≠ "."
  slash_not_mem : '/' ∉ name.toList

instance (name : String) : Decidable (IsPlainName name) :=
  decidable_of_iff (name ≠ "" ∧ name ≠ "." ∧ '/' ∉ name.toList)
    ⟨fun ⟨hempty, hpoint, hslash⟩ => ⟨hempty, hpoint, hslash⟩,
      fun h => ⟨h.ne_empty, h.ne_point, h.slash_not_mem⟩⟩

/-- Whether a store is a tree of files: it has no symbolic links, all names are plain, and what is a
    file is no directory. -/
structure FileStore.IsTree (s : FileStore) : Prop where
  links_eq_nil : s.links = []
  plain : ∀ f ∈ s.files, ∀ name ∈ f.1.names, IsPlainName name
  apart : ∀ f ∈ s.files, s.isDirectory f.1 = false

instance (s : FileStore) : Decidable s.IsTree :=
  decidable_of_iff (s.links = [] ∧ (∀ f ∈ s.files, ∀ name ∈ f.1.names, IsPlainName name) ∧
      ∀ f ∈ s.files, s.isDirectory f.1 = false)
    ⟨fun ⟨hlinks, hplain, hapart⟩ => ⟨hlinks, hplain, hapart⟩,
      fun h => ⟨h.links_eq_nil, h.plain, h.apart⟩⟩

namespace FileStore

variable {s : FileStore} {start place file directory : Location} {path : Path}
  {names : List String}

/-- A file of a store that `IsTree` stands where its names say. -/
theorem IsTree.exists_mem_files (h : s.IsTree) (hfile : s.isFile file = true) :
    ∃ data, (file, data) ∈ s.files := by
  obtain ⟨data, hf⟩ := isFile_iff.1 hfile
  exact ⟨data, real_of_links_eq_nil h.links_eq_nil file ▸ hf⟩

theorem IsTree.isPlainName (h : s.IsTree) (hfile : s.isFile file = true) :
    ∀ name ∈ file.names, IsPlainName name := by
  obtain ⟨data, hf⟩ := h.exists_mem_files hfile
  exact h.plain _ hf

theorem IsTree.isDirectory_eq_false (h : s.IsTree) (hfile : s.isFile file = true) :
    s.isDirectory file = false := by
  obtain ⟨data, hf⟩ := h.exists_mem_files hfile
  exact h.apart _ hf

theorem IsTree.mem_entries (h : s.IsTree) (hfile : s.isFile file = true) : file ∈ s.entries :=
  mem_entries_of_isFile (real_of_links_eq_nil h.links_eq_nil file) hfile

/-! ## Where paths lead -/

/-- Where names lead from a place. Whatever is left by a name has to be a directory. -/
inductive Walks (s : FileStore) : Location → List String → Location → Prop
  | stay (place : Location) : Walks s place [] place
  | step {place target : Location} {name : String} {names : List String}
      (isDirectory : s.isDirectory place = true) (rest : Walks s (s.step place name) names target) :
      Walks s place (name :: names) target

/-- Whether `path` leads to `place` from the working `directory`, and something is there. -/
structure Reaches (s : FileStore) (directory : Location) (path : Path) (place : Location) :
    Prop where
  walks : s.Walks (if path.isAbsolute then ⟨[]⟩ else directory) path.names place
  has : s.has place = true

theorem follow_eq_ok_iff : s.follow start names = .ok place ↔ s.Walks start names place := by
  constructor
  · intro h
    induction names generalizing start with
    | nil =>
      obtain rfl := Except.ok.inj h
      exact .stay start
    | cons name names ih =>
      unfold follow at h
      split at h
      · next hdir => exact .step hdir (ih h)
      · -- the name is not looked at, for want of a directory
        split at h
        · cases h
        · cases h
  · intro h
    induction h with
    | stay place => rfl
    | step hdir _ ih =>
      unfold follow
      rw [if_pos hdir, ih]

theorem Reaches.find_eq (h : s.Reaches directory path place) :
    s.find directory path = .ok place :=
  follow_eq_ok_iff.2 h.walks

/-- A path `Reaches` one place only, the one that it is resolved to. -/
theorem Reaches.resolve_eq (h : s.Reaches directory path place) :
    s.resolve directory path = place :=
  (follow_eq_ok h.find_eq).symm

theorem pathExists_iff :
    s.pathExists directory path = true ↔ ∃ place, s.Reaches directory path place := by
  unfold pathExists
  constructor
  · intro h
    split at h
    · next place hfind => exact ⟨place, follow_eq_ok_iff.1 hfind, h⟩
    · cases h
  · rintro ⟨place, h⟩
    rw [h.find_eq]
    exact h.has

end FileStore

/-! ## The texts of places -/

/-- The function `splitAt` is `List.splitOn`. -/
theorem Text.splitAt_eq_splitOn {α : Type} [BEq α] (separator : α) (cs : List α) :
    Text.splitAt separator cs = cs.splitOn separator := by
  induction cs with
  | nil => rw [Text.splitAt, List.splitOn_nil]
  | cons c cs ih =>
    rw [Text.splitAt, List.splitOn_cons_eq_if_modifyHead, ih]
    split
    · rfl
    · -- there is always a piece
      cases hpieces : cs.splitOn separator with
      | nil => exact absurd hpieces (List.splitOn_ne_nil separator cs)
      | cons piece pieces => rfl

namespace Location

variable {l other : Location}

/-- The names between the slashes of a place's text are its own. -/
theorem names_ofText_toText (h : ∀ name ∈ l.names, IsPlainName name) :
    (Path.ofText l.toText).names = l.names := by
  have hkept : ∀ name ∈ l.names, (name != "" && name != ".") = true := by
    intro name hname
    simp [(h name hname).ne_empty, (h name hname).ne_point]
  have htext : l.toText.toList = '/' :: ['/'].intercalate (l.names.map String.toList) := by
    simp [toText, String.toList_append, String.toList_intercalate]
  show ((Text.splitAt '/' l.toText.toList).map String.ofList).filter _ = l.names
  rw [Text.splitAt_eq_splitOn, htext, List.splitOn_cons_eq_if_modifyHead, if_pos (by decide)]
  by_cases hnil : l.names = []
  · rw [hnil]
    decide
  · rw [List.splitOn_intercalate '/' ?_ (by simpa using hnil)]
    · -- the text starts with a slash, and the empty name ahead of it leads nowhere
      simp only [List.map_cons, List.map_map, Function.comp_def, String.ofList_toList, List.map_id']
      rw [List.filter_cons_of_neg (by decide), List.filter_eq_self.2 hkept]
    · intro cs hcs
      obtain ⟨name, hname, rfl⟩ := List.mem_map.1 hcs
      exact (h name hname).slash_not_mem

/-- Places with plain names have a different `toText` each. -/
theorem eq_of_toText_eq (hl : ∀ name ∈ l.names, IsPlainName name)
    (ho : ∀ name ∈ other.names, IsPlainName name) (h : l.toText = other.toText) : l = other := by
  have hnames : l.names = other.names := by
    rw [← names_ofText_toText hl, ← names_ofText_toText ho, h]
  exact eq_of_names_eq hnames

end Location

namespace Collect

variable {s : FileStore} {file place directory : Location} {name : String}
  {extensions fragments paths others : List String} {places : List Location}

/-! ## What paths offer -/

/-- Whether `name` is that of a source: it does not end in `.d.ts`, and its suffix, in small
    letters, is one of the `extensions`. -/
structure IsNameOfSource (extensions : List String) (name : String) : Prop where
  declares_more : ¬".d.ts".toList <:+ name.toList
  suffix : Text.lower (suffixOf name) ∈ extensions

/-- Whether none of the `fragments` occurs in `text`. -/
def IsFreeOf (fragments : List String) (text : String) : Prop :=
  ∀ fragment ∈ fragments, ¬fragment.toList <:+: text.toList

/-- Whether `path` offers `file`: it leads to the file itself, or to a directory above it. -/
inductive Offers (s : FileStore) (directory : Location) (fragments : List String) (path : String)
    (file : Location) : Prop
  /-- The file itself is judged by its `name` alone. -/
  | itself (reaches : s.Reaches directory (Path.ofText path) file)
      (free : IsFreeOf fragments file.name)
  /-- A file below a directory is judged by the `names` that lead to it from there. -/
  | below (place : Location) (names : List String)
      (reaches : s.Reaches directory (Path.ofText path) place)
      (isDirectory : s.isDirectory place = true)
      (ne_nil : names ≠ []) (names_eq : file.names = place.names ++ names)
      (visited : ∀ name ∈ names.dropLast, name ∉ ["node_modules", ".git", "dist", "build"])
      (free : IsFreeOf fragments ("/".intercalate names))

theorem isSourceName_iff :
    isSourceName extensions name = true ↔ IsNameOfSource extensions name := by
  rw [isSourceName, Bool.and_eq_true, Bool.not_eq_true', List.contains_iff_mem,
    ← Bool.not_eq_true, Text.endsWith, List.isSuffixOf_iff_suffix]
  exact ⟨fun ⟨hdeclares, hsuffix⟩ => ⟨hdeclares, hsuffix⟩, fun h => ⟨h.declares_more, h.suffix⟩⟩

theorem contains_iff {whole part : String} :
    Text.contains whole part = true ↔ part.toList <:+: whole.toList := by
  rw [Text.contains, Text.occursIn_iff]
  exact ⟨fun ⟨before, after, h⟩ => ⟨before, after, h.symm⟩,
    fun ⟨before, after, h⟩ => ⟨before, after, h.symm⟩⟩

theorem isExcluded_eq_false_iff {names : List String} :
    isExcluded fragments names = false ↔
      (∀ name ∈ names.dropLast, name ∉ ["node_modules", ".git", "dist", "build"]) ∧
        IsFreeOf fragments ("/".intercalate names) := by
  rw [isExcluded, Bool.or_eq_false_iff, List.any_eq_false, List.any_eq_false]
  simp only [List.contains_iff_mem, contains_iff]
  rfl

/-- The sources of a directory are those below it, by the `names` from there. -/
theorem mem_sourcesAt_iff_of_isDirectory (hdir : s.isDirectory place = true) :
    file ∈ sourcesAt s place extensions fragments ↔
      file ∈ s.entries ∧ s.isFile file = true ∧ isSourceName extensions file.name = true ∧
        ∃ names ≠ [], file.names = place.names ++ names ∧ isExcluded fragments names = false := by
  rw [mem_sourcesAt_iff, if_pos hdir, if_pos hdir, Location.isBelow_iff]
  constructor
  · rintro ⟨⟨hentry, hfile, ⟨names, heq⟩, hlt⟩, hname, hexcluded⟩
    rw [← heq, List.drop_left] at hexcluded
    refine ⟨hentry, hfile, hname, names, fun hnil => ?_, heq.symm, hexcluded⟩
    rw [← heq, hnil, List.append_nil] at hlt
    exact Nat.lt_irrefl _ hlt
  · rintro ⟨hentry, hfile, hname, names, hne, heq, hexcluded⟩
    rw [heq, List.drop_left, List.length_append]
    have hpos := List.length_pos_iff.2 hne
    exact ⟨⟨hentry, hfile, List.prefix_append _ _, by omega⟩, hname, hexcluded⟩

/-- The one source of a `place` that is no directory is the place itself, by its last name. -/
theorem mem_sourcesAt_iff_of_not_isDirectory (hdir : s.isDirectory place = false) :
    file ∈ sourcesAt s place extensions fragments ↔
      file = place ∧ isSourceName extensions file.name = true ∧
        isExcluded fragments [file.name] = false := by
  have hno : ¬s.isDirectory place = true := by
    rw [hdir]
    exact Bool.false_ne_true
  -- the root is a directory, so the place has a name
  have hne : place.names ≠ [] := fun hnil => hno (FileStore.isDirectory_of_names_eq_nil hnil)
  have hlast : place.names.drop place.parent.names.length = [place.name] := by
    rw [Location.names_eq_of_ne_nil hne, List.drop_left]
  rw [mem_sourcesAt_iff, if_neg hno, if_neg hno]
  constructor
  · rintro ⟨rfl, hname, hexcluded⟩
    rw [hlast] at hexcluded
    exact ⟨rfl, hname, hexcluded⟩
  · rintro ⟨rfl, hname, hexcluded⟩
    rw [hlast]
    exact ⟨rfl, hname, hexcluded⟩

/-- A file with the name of a source is offered by `path` just when it is one of `sourcesAt` the
    place to which the path leads. -/
theorem offers_iff (hs : s.IsTree) (hfile : s.isFile file = true)
    (hname : isSourceName extensions file.name = true) {path : String} :
    Offers s directory fragments path file ↔
      ∃ place, s.Reaches directory (Path.ofText path) place ∧
        file ∈ sourcesAt s place extensions fragments := by
  have hno := hs.isDirectory_eq_false hfile
  have halone : "/".intercalate [file.name] = file.name := String.intercalate_singleton
  constructor
  · intro h
    cases h with
    | itself reaches free =>
      refine ⟨file, reaches, (mem_sourcesAt_iff_of_not_isDirectory hno).2 ⟨rfl, hname, ?_⟩⟩
      exact isExcluded_eq_false_iff.2 ⟨by simp, by rwa [halone]⟩
    | below place names reaches hdir hne heq visited free =>
      exact ⟨place, reaches, (mem_sourcesAt_iff_of_isDirectory hdir).2
        ⟨hs.mem_entries hfile, hfile, hname, names, hne, heq,
          isExcluded_eq_false_iff.2 ⟨visited, free⟩⟩⟩
  · rintro ⟨place, reaches, hat⟩
    cases hdir : s.isDirectory place with
    | true =>
      obtain ⟨-, -, -, names, hne, heq, hexcluded⟩ :=
        (mem_sourcesAt_iff_of_isDirectory hdir).1 hat
      obtain ⟨visited, free⟩ := isExcluded_eq_false_iff.1 hexcluded
      exact .below place names reaches hdir hne heq visited free
    | false =>
      obtain ⟨rfl, -, hexcluded⟩ := (mem_sourcesAt_iff_of_not_isDirectory hdir).1 hat
      obtain ⟨-, free⟩ := isExcluded_eq_false_iff.1 hexcluded
      exact .itself reaches (by rwa [halone] at free)

/-- The `sources` are the files with names of sources that some path `Offers`. -/
theorem mem_sources_iff_offers (hs : s.IsTree) :
    file ∈ sources s directory extensions fragments paths ↔
      s.isFile file = true ∧ IsNameOfSource extensions file.name ∧
        ∃ path ∈ paths, Offers s directory fragments path file := by
  constructor
  · intro h
    obtain ⟨hfile, -, hname⟩ := isFile_of_mem_sources h
    obtain ⟨path, hpath, hexists, hat⟩ := mem_sources_iff.1 h
    obtain ⟨place, reaches⟩ := FileStore.pathExists_iff.1 hexists
    rw [reaches.resolve_eq] at hat
    exact ⟨hfile, isSourceName_iff.1 hname, path, hpath,
      (offers_iff hs hfile hname).2 ⟨place, reaches, hat⟩⟩
  · rintro ⟨hfile, hname, path, hpath, hoffers⟩
    obtain ⟨place, reaches, hat⟩ := (offers_iff hs hfile (isSourceName_iff.2 hname)).1 hoffers
    refine mem_sources_iff.2 ⟨path, hpath, FileStore.pathExists_iff.2 ⟨place, reaches⟩, ?_⟩
    rwa [reaches.resolve_eq]

/-! ## The order of the sources -/

/-- Places with plain names are `sorted` strictly, since no two of them have one text. -/
theorem pairwise_sorted (h : ∀ l ∈ places, ∀ name ∈ l.names, IsPlainName name) :
    (sorted places).Pairwise fun a b => a.toText < b.toText := by
  have hordered : (sorted places).Pairwise fun a b => a.toText ≤ b.toText := by
    unfold sorted
    refine (List.pairwise_mergeSort ?_ ?_ _).imp fun h => of_decide_eq_true h
    · intro a b c hab hbc
      exact decide_eq_true (String.le_trans (of_decide_eq_true hab) (of_decide_eq_true hbc))
    · intro a b
      simpa using String.le_total a.toText b.toText
  have hnodup : (sorted places).Nodup := (List.mergeSort_perm _ _).nodup_iff.2 (nodup_eraseDups _)
  refine (hordered.and hnodup).imp_of_mem fun {a b} ha hb hab => ?_
  have hne : a.toText ≠ b.toText := fun heq =>
    hab.2 (Location.eq_of_toText_eq (h a (mem_sorted_iff.1 ha)) (h b (mem_sorted_iff.1 hb)) heq)
  exact String.not_le.1 fun hba => hne (String.le_antisymm hab.1 hba)

/-- The `sources` of a store that `IsTree` are listed in the order of their texts, each once. -/
theorem pairwise_sources (hs : s.IsTree) :
    (sources s directory extensions fragments paths).Pairwise fun a b => a.toText < b.toText := by
  refine pairwise_sorted fun l hl => ?_
  have hmem : l ∈ sources s directory extensions fragments paths := mem_sorted_iff.2 hl
  exact hs.isPlainName (isFile_of_mem_sources hmem).1

/-- The same paths, in any order and however often each is given, have the same `sources`. -/
theorem sources_congr (hs : s.IsTree) (h : ∀ path, path ∈ others ↔ path ∈ paths) :
    sources s directory extensions fragments others
      = sources s directory extensions fragments paths := by
  have hmem : ∀ file, file ∈ sources s directory extensions fragments others ↔
      file ∈ sources s directory extensions fragments paths := by
    intro file
    simp only [mem_sources_iff_offers hs, h]
  have hperm := (List.perm_ext_iff_of_nodup (nodup_sources s directory extensions fragments others)
    (nodup_sources s directory extensions fragments paths)).2 hmem
  -- two lists of the same places, each in strict order
  refine hperm.eq_of_pairwise (fun a b _ _ hab hba => ?_) (pairwise_sources hs)
    (pairwise_sources hs)
  exact absurd (String.lt_trans hab hba) (String.lt_irrefl _)

end Collect

/-! ## The files of a run -/

/-- A run over a store that `IsTree` collects its sources in strict order of their texts: the files
    with names of sources that one of its paths `Offers`. The list does not depend on the order of
    the paths, or on how often each is given. -/
theorem Workspace.collect_lists_sources (w : Workspace) {s : FileStore} (hs : s.IsTree)
    (paths : List String) :
    ((w.collect s paths).map Location.toText).Pairwise (· < ·) ∧
    (∀ file, file ∈ w.collect s paths ↔
      s.isFile file = true ∧ Collect.IsNameOfSource w.settings.extensions file.name ∧
        ∃ path ∈ paths, Collect.Offers s w.directory w.settings.exclude path file) ∧
    ∀ others : List String, (∀ path, path ∈ others ↔ path ∈ paths) →
      w.collect s others = w.collect s paths :=
  ⟨List.pairwise_map.2 (Collect.pairwise_sources hs), fun _ => Collect.mem_sources_iff_offers hs,
    fun _ h => Collect.sources_congr hs h⟩

/-- A project with a source in a directory `dist`, which is skipped. -/
def FileStore.builtProject : FileStore where
  files := [(⟨["p", "src", "a.ts"]⟩, []), (⟨["p", "src", "a.d.ts"]⟩, []),
    (⟨["p", "src", "dist", "b.TS"]⟩, [])]
  directories := []

/-- A run over `FileStore.builtProject`. -/
def Workspace.builtProject : Workspace where
  linter := ⟨⟨{}, .default⟩, .emptyFunction⟩
  settings := { options := {}, exclude := ["gen"], extensions := [".ts"] }
  directory := ⟨["p"]⟩

/-- A source in `dist` is skipped on the way from `src`, and collected from `src/dist`, which leads
    past it. -/
theorem Workspace.collect_lists_builtProject :
    FileStore.builtProject.IsTree ∧
    (⟨["p", "src", "dist", "b.TS"]⟩ : Location)
      ∉ Workspace.builtProject.collect .builtProject ["src"] ∧
    (⟨["p", "src", "dist", "b.TS"]⟩ : Location)
      ∈ Workspace.builtProject.collect .builtProject ["src", "gone", "src/dist"] ∧
    Workspace.builtProject.collect .builtProject ["src/dist", "src", "gone", "src"]
      = Workspace.builtProject.collect .builtProject ["src", "gone", "src/dist"] := by
  have htree : FileStore.builtProject.IsTree := by decide +kernel
  have hspec := Workspace.builtProject.collect_lists_sources htree
  refine ⟨htree, fun hmem => ?_, ((hspec _).2.1 _).2 ⟨by decide +kernel, ?_, ?_⟩,
    (hspec _).2.2 _ (by grind)⟩
  · obtain ⟨-, -, path, hpath, hoffers⟩ := ((hspec _).2.1 _).1 hmem
    obtain rfl := List.mem_singleton.1 hpath
    cases hoffers with
    | itself reaches _ => exact absurd reaches.resolve_eq (by decide +kernel)
    | below place names reaches _ _ heq visited _ =>
      have hplace : (⟨["p", "src"]⟩ : Location) = place := reaches.resolve_eq
      obtain rfl : ["dist", "b.TS"] = names := by simpa [← hplace] using heq
      exact visited "dist" (by decide) (by decide)
  · exact Collect.isSourceName_iff.1 (by decide +kernel)
  · have hplace : FileStore.builtProject.Reaches ⟨["p"]⟩ (Path.ofText "src/dist")
        ⟨["p", "src", "dist"]⟩ :=
      ⟨.step (by decide +kernel) (.step (by decide +kernel) (.stay _)), by decide +kernel⟩
    obtain ⟨visited, free⟩ := Collect.isExcluded_eq_false_iff.1
      (show Collect.isExcluded ["gen"] ["b.TS"] = false by decide +kernel)
    exact ⟨"src/dist", by decide, .below _ ["b.TS"] hplace (by decide +kernel) (by decide) rfl
      visited free⟩

end ArrowLint
