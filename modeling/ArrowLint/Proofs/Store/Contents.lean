/-
  ArrowLint.Proofs.Store.Contents

  What a store holds before and after a write. Every name of the file that is written has the new
  bytes from then on, and every place at which another file is found keeps what it has
  (`FileStore.contents?_put`). A file is only written into a directory that is there, so directories
  neither come nor go (`FileStore.isDirectory_put`). What is read has the ends of its lines unified
  (`FileStore.readText_eq_ok_iff`); so a text comes back as it was written if there is no return
  in it. Without links a place is its own `FileStore.real` place.
-/

import Mathlib.Data.List.Induction
import ArrowLint.FileStore
import ArrowLint.Proofs.Text.Newline

namespace ArrowLint

theorem Location.eq_of_names_eq {l other : Location} (h : l.names = other.names) : l = other := by
  cases l
  cases other
  exact congrArg Location.mk h

theorem Location.isBelow_iff {l above : Location} :
    l.isBelow above = true ↔ above.names <+: l.names ∧ above.names.length < l.names.length := by
  simp [isBelow]

/-- If `l` lies below `above`, its parent is `above` or lies below it itself. -/
theorem Location.isPrefix_parent_of_isBelow {l above : Location} (h : l.isBelow above = true) :
    above.names <+: l.parent.names := by
  obtain ⟨hp, hlt⟩ := isBelow_iff.1 h
  have hle : above.names.length ≤ l.names.dropLast.length := by
    rw [List.length_dropLast]
    omega
  exact List.prefix_of_prefix_length_le hp (List.dropLast_prefix l.names) hle

namespace FileStore

variable {s t : FileStore} {place other : Location} {data : Bytes}

/-! ## Links -/

/-- The place `fileAt` is read off the links and the aliases alone. -/
theorem fileAt_congr (hl : t.links = s.links) (ha : t.aliases = s.aliases) :
    t.fileAt = s.fileAt := by
  funext place
  rw [fileAt, fileAt, firstName, firstName, ha, real, real]
  simp only [throughLink, hl]

theorem throughLink_of_links_eq_nil (h : s.links = []) (place : Location) :
    s.throughLink place = place := by
  rw [throughLink, h]
  rfl

/-- Without links `real` leads nowhere else. -/
theorem real_of_links_eq_nil (h : s.links = []) (place : Location) : s.real place = place := by
  have hfold : ∀ (names : List String) (above : Location),
      names.foldl (fun above name => s.throughLink (above.child name)) above
        = ⟨above.names ++ names⟩ := by
    intro names
    induction names with
    | nil => simp
    | cons name names ih =>
      intro above
      rw [List.foldl_cons, throughLink_of_links_eq_nil h, ih]
      simp [Location.child]
  rw [real, hfold, List.nil_append]

/-- Without links, symbolic or hard, `fileAt` is the place itself. -/
theorem fileAt_of_links_eq_nil (hl : s.links = []) (ha : s.aliases = []) (place : Location) :
    s.fileAt place = place := by
  rw [fileAt, real_of_links_eq_nil hl, firstName, ha]
  rfl

theorem isFile_iff : s.isFile place = true ↔ ∃ data, (s.real place, data) ∈ s.files := by
  simp [isFile, contents?]

/-- A file whose place is `real` stands in its directory. -/
theorem mem_entries_of_isFile (hreal : s.real place = place) (h : s.isFile place = true) :
    place ∈ s.entries := by
  obtain ⟨data, hf⟩ := isFile_iff.1 h
  rw [hreal] at hf
  exact List.mem_append_left _ (List.mem_map_of_mem hf)

/-- A directory is the root, or what has been made there or below, or what one of the `entries`
    stands in. -/
theorem hasDirectory_iff : s.hasDirectory place = true ↔
    place.names = [] ∨ (∃ d ∈ s.directories, place.names <+: d.names) ∨
      ∃ entry ∈ s.entries, entry.isBelow place = true := by
  have hdir : ∀ d : Location, (d == place || d.isBelow place) = true ↔ place.names <+: d.names := by
    intro d
    rw [Bool.or_eq_true, beq_iff_eq, Location.isBelow_iff]
    constructor
    · rintro (rfl | ⟨hp, -⟩)
      · exact List.prefix_rfl
      · exact hp
    · intro hp
      -- a start that is no shorter is the whole
      by_cases hlt : place.names.length < d.names.length
      · exact .inr ⟨hp, hlt⟩
      · exact .inl (Location.eq_of_names_eq (hp.eq_of_length_le (by omega)).symm)
  rw [hasDirectory, Bool.or_eq_true, Bool.or_eq_true, List.any_eq_true, List.isEmpty_iff,
    List.any_eq_true, or_assoc]
  simp only [hdir]

/-- The root is a directory, whatever there is. -/
theorem isDirectory_of_names_eq_nil (h : place.names = []) : s.isDirectory place = true := by
  refine hasDirectory_iff.2 (.inl ?_)
  rw [real, h]
  rfl

/-- A place above one that `hasDirectory` is a directory, too. -/
theorem hasDirectory_of_isPrefix (h : s.hasDirectory other = true)
    (hp : place.names <+: other.names) : s.hasDirectory place = true := by
  rw [hasDirectory_iff] at h ⊢
  rcases h with hroot | ⟨d, hd, hod⟩ | ⟨entry, hentry, hbelow⟩
  · rw [hroot] at hp
    exact .inl (List.prefix_nil.1 hp)
  · exact .inr (.inl ⟨d, hd, hp.trans hod⟩)
  · obtain ⟨hol, hlt⟩ := Location.isBelow_iff.1 hbelow
    have hle := hp.length_le
    exact .inr (.inr ⟨entry, hentry, Location.isBelow_iff.2 ⟨hp.trans hol, by omega⟩⟩)

/-! ## Putting a file -/

/-- Where the bytes of some files are replaced in a listing, `lookup` gives the new bytes for these
    and the old ones for all others. -/
theorem lookup_map_replace (files : List (Location × Bytes)) (replaced : Location → Bool)
    (data : Bytes) (other : Location) :
    (files.map fun f => if replaced f.1 then (f.1, data) else f).lookup other
      = if replaced other then (files.lookup other).map fun _ => data else files.lookup other := by
  induction files with
  | nil => simp
  | cons f files ih =>
    obtain ⟨l, old⟩ := f
    have hname : (if replaced l = true then (l, data) else (l, old))
        = (l, if replaced l = true then data else old) := by
      split
      · rfl
      · rfl
    rw [List.map_cons, hname, List.lookup_cons, List.lookup_cons]
    by_cases ho : other = l
    · subst ho
      simp only [beq_self_eq_true, Option.map_some]
      split
      · rfl
      · rfl
    · have hb : (other == l) = false := by simpa using ho
      rw [hb]
      exact ih

/-- Where the file at `place` is rewritten under each of its names, a place that shares it leads to
    the new bytes, if there is such a file, and every other place to what it did. -/
theorem lookup_rewritten (s : FileStore) (place other : Location) (data : Bytes) :
    (s.files.map fun f => if s.firstName f.1 == s.fileAt place then (f.1, data) else f).lookup
        (s.real other)
      = if s.fileAt other = s.fileAt place ∧ s.isFile other = true
        then some data else s.contents? other := by
  have hreplaced := lookup_map_replace s.files (s.firstName · == s.fileAt place) data (s.real other)
  have hshared : (s.firstName (s.real other) == s.fileAt place) = true ↔
      s.fileAt other = s.fileAt place := beq_iff_eq
  simp only [hshared] at hreplaced
  rw [hreplaced]
  cases hother : s.contents? other with
  | some old => simp [isFile, hother, show s.files.lookup (s.real other) = some old from hother]
  | none => simp [isFile, hother, show s.files.lookup (s.real other) = none from hother]

/-- After `put` the file at the place holds the new bytes, under each of its names, and no other
    file is touched. -/
theorem contents?_put (s : FileStore) (place other : Location) (data : Bytes) :
    (s.put place data).contents? other
      = if s.fileAt other = s.fileAt place ∧ (s.isFile other = true ∨ s.real other = s.real place)
        then some data else s.contents? other := by
  have hthere : s.real other = s.real place → s.isFile other = s.isFile place := fun heq => by
    rw [isFile, isFile, contents?, contents?, heq]
  have hput : (s.put place data).contents? other = (if s.isFile place then
        s.files.map fun f => if s.firstName f.1 == s.fileAt place then (f.1, data) else f
      else (s.files.map fun f => if s.firstName f.1 == s.fileAt place then (f.1, data) else f)
        ++ [(s.real place, data)]).lookup (s.real other) := rfl
  rw [hput]
  cases hplace : s.isFile place with
  | true =>
    rw [if_pos rfl, lookup_rewritten]
    refine if_congr (and_congr_right fun _ => ⟨.inl, fun h => ?_⟩) rfl rfl
    exact h.elim id fun heq => (hthere heq).trans hplace
  | false =>
    rw [if_neg Bool.false_ne_true, List.lookup_append, lookup_rewritten]
    by_cases heq : s.real other = s.real place
    · -- nothing is at either place yet, so the new file is found
      have hno : s.isFile other = false := (hthere heq).trans hplace
      have hnone : s.contents? other = none := by simpa [isFile] using hno
      have hshared : s.fileAt other = s.fileAt place := congrArg s.firstName heq
      simp [hshared, heq, hno, hnone]
    · have hmiss : [(s.real place, data)].lookup (s.real other) = none := by
        rw [List.lookup_cons, beq_eq_false_iff_ne.2 heq, List.lookup_nil]
      rw [hmiss, Option.or_none]
      simp [heq]

theorem contents?_put_self : (s.put place data).contents? place = some data := by
  rw [contents?_put, if_pos ⟨rfl, .inr rfl⟩]

theorem contents?_put_of_ne (h : s.fileAt other ≠ s.fileAt place) :
    (s.put place data).contents? other = s.contents? other := by
  rw [contents?_put, if_neg fun hshared => h hshared.1]

/-- After `put` there is a file at the place, by every link to it, and all others are as before. -/
theorem isFile_put_iff :
    (s.put place data).isFile other = true ↔
      s.real other = s.real place ∨ s.isFile other = true := by
  rw [isFile, contents?_put]
  by_cases heq : s.real other = s.real place
  · have hshared : s.fileAt other = s.fileAt place := congrArg s.firstName heq
    simp [heq, hshared]
  · by_cases hshared : s.fileAt other = s.fileAt place ∧ s.isFile other = true
    · simp [hshared]
    · have hno : ¬(s.fileAt other = s.fileAt place ∧ (s.isFile other = true ∨
          s.real other = s.real place)) := by
        rintro ⟨hfile, hold | hreal⟩
        · exact hshared ⟨hfile, hold⟩
        · exact heq hreal
      rw [if_neg hno]
      simp [heq, isFile]

/-- After `put` a new file is one more of the `entries`. -/
theorem mem_entries_put_iff {entry : Location} : entry ∈ (s.put place data).entries ↔
    entry ∈ s.entries ∨ s.isFile place = false ∧ entry = s.real place := by
  have hnames : (s.files.map fun f =>
      if s.firstName f.1 == s.fileAt place then (f.1, data) else f).map (·.1)
        = s.files.map (·.1) := by
    rw [List.map_map]
    refine List.map_congr_left fun f _ => ?_
    rw [Function.comp_apply]
    split
    · rfl
    · rfl
  have hlinks : (s.put place data).links = s.links := rfl
  have hput : (s.put place data).files.map (·.1)
      = if s.isFile place then s.files.map (·.1) else s.files.map (·.1) ++ [s.real place] := by
    unfold put
    dsimp only
    split
    · exact hnames
    · rw [List.map_append, hnames]
      rfl
  rw [entries, entries, hput, hlinks]
  cases s.isFile place with
  | true => simp
  | false => simp [or_right_comm, or_assoc]

/-- With a directory to stand in, `put` makes no new directory and takes none away. -/
theorem isDirectory_put (h : s.hasDirectory (s.real place).parent = true) (data : Bytes)
    (other : Location) : (s.put place data).isDirectory other = s.isDirectory other := by
  have hreal : (s.put place data).real other = s.real other := rfl
  have hdirs : (s.put place data).directories = s.directories := rfl
  rw [isDirectory, isDirectory, hreal, Bool.eq_iff_iff, hasDirectory_iff, hasDirectory_iff, hdirs]
  simp only [mem_entries_put_iff]
  constructor
  · rintro (hroot | hd | ⟨entry, hentry | ⟨-, rfl⟩, hbelow⟩)
    · exact .inl hroot
    · exact .inr (.inl hd)
    · exact .inr (.inr ⟨entry, hentry, hbelow⟩)
    · -- what the new file makes a directory is above the one that it stands in
      exact hasDirectory_iff.1
        (hasDirectory_of_isPrefix h (Location.isPrefix_parent_of_isBelow hbelow))
  · rintro (hroot | hd | ⟨entry, hentry, hbelow⟩)
    · exact .inl hroot
    · exact .inr (.inl hd)
    · exact .inr (.inr ⟨entry, .inl hentry, hbelow⟩)

/-! ## Reading and writing -/

/-- What `readText` gives is the text of a file with the ends of its lines `unified`. -/
theorem readText_eq_ok_iff {source : String} : s.readText place = .ok source ↔
    ∃ text, s.contents? place = some (Bytes.ofText text) ∧
      Bytes.ofText source = Bytes.unified (Bytes.ofText text) := by
  unfold readText readBytes
  cases hc : s.contents? place with
  | none =>
    dsimp only
    split
    · next he =>
      split at he
      · simp
      · simp
    · next he =>
      split at he
      · cases he
      · cases he
  | some data =>
    dsimp only
    cases ht : Bytes.text? data with
    | none =>
      have hno := Bytes.text?_eq_none_iff.1 ht
      refine iff_of_false (by simp) ?_
      rintro ⟨text, hdata, -⟩
      exact hno text (Option.some.inj hdata).symm
    | some text =>
      have hdata := Bytes.text?_eq_some_iff.1 ht
      dsimp only
      constructor
      · intro h
        obtain rfl := Except.ok.inj h
        exact ⟨text, by rw [hdata], Bytes.ofText_unifyNewlines text⟩
      · rintro ⟨text', hdata', hsource⟩
        obtain rfl := Bytes.ofText_injective (hdata.trans (Option.some.inj hdata'))
        refine congrArg Except.ok (Bytes.ofText_injective ?_)
        rw [Bytes.ofText_unifyNewlines, hsource]

theorem writeBytes_eq_ok_iff : s.writeBytes place data = .ok t ↔
    s.isDirectory place = false ∧ s.hasDirectory (s.real place).parent = true ∧
      t = s.put place data := by
  unfold writeBytes
  split
  · next hd => simp [hd]
  · next hd =>
    split
    · next hp => simp [hd, hp, eq_comm]
    · next hp => simp [hp]

end FileStore

end ArrowLint
