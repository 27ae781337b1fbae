/-
  ArrowLint.Proofs.Store.Changes

  What changes do to a store. A change writes certain bytes (`FileStore.dataFor?`) to the file at
  one place (`FileStore.targetOf`) and does nothing else, which `FileStore.apply_eq_ok_iff` says
  once for both kinds of change. Of changes that are made one after the other, whatever holds of
  a file that none of them writes holds to the end, and also on the way there:
  `FileStore.IsMidway` takes in the stores between two changes, and those that are met while one
  of them is under way.
-/

import ArrowLint.Proofs.Fallible
import ArrowLint.Proofs.Store.Contents
import ArrowLint.Run

namespace ArrowLint

namespace FileStore

variable {s t u : FileStore} {c : Change} {changes done rest : List Change} {place : Location}

/-! ## One change -/

/-- The place that a `Change` writes. -/
def targetOf (s : FileStore) : Change → Location
  | .backUp file => s.copyPlace file
  | .write file _ => file

/-- With no directory in its way, the copy of `file` goes to its `backupPlace`. -/
theorem copyPlace_eq {file : Location} (h : s.isDirectory (backupPlace file) = false) :
    s.copyPlace file = backupPlace file := by
  rw [copyPlace, if_neg (by rw [h]; exact Bool.false_ne_true)]

/-- The bytes that a `Change` writes: those of the file that it copies, or those of its text. -/
def dataFor? (s : FileStore) : Change → Option Bytes
  | .backUp file => s.contents? file
  | .write _ text => some (Bytes.ofText text)

/-- Whether a `Change` copies a file to itself. -/
def CopiesToItself (s : FileStore) : Change → Prop
  | .backUp file => s.fileAt (s.copyPlace file) = s.fileAt file
  | .write _ _ => False

/-- A change is made just when there are bytes to write (`dataFor?`), the file to write is not their
    own, and there is a directory to write it in; and then the store is `put` these bytes. -/
theorem apply_eq_ok_iff : s.apply c = .ok t ↔
    ∃ data, s.dataFor? c = some data ∧ ¬s.CopiesToItself c ∧ s.isDirectory (s.targetOf c) = false ∧
      s.hasDirectory (s.real (s.targetOf c)).parent = true ∧ t = s.put (s.targetOf c) data := by
  cases c with
  | write file text =>
    have h : s.apply (.write file text) = s.writeBytes file (Bytes.ofText text) := rfl
    rw [h, writeBytes_eq_ok_iff]
    simp [dataFor?, targetOf, CopiesToItself]
  | backUp file =>
    have h : s.apply (.backUp file) = s.backUp file := rfl
    rw [h, backUp, readBytes]
    cases hc : s.contents? file with
    | some data =>
      dsimp only
      by_cases hself : s.fileAt (s.copyPlace file) = s.fileAt file
      · simp [hself, CopiesToItself]
      · rw [if_neg (by simpa using hself), writeBytes_eq_ok_iff]
        simp [dataFor?, hc, targetOf, CopiesToItself, hself]
    | none =>
      -- without the file there is nothing to copy
      have hno : s.dataFor? (.backUp file) = none := hc
      by_cases hd : s.isDirectory file = true
      · simp [hno, hd]
      · simp [hno, hd]

/-- After a change its `targetOf` holds what it writes. -/
theorem contents?_targetOf_of_apply (h : s.apply c = .ok t) :
    t.contents? (s.targetOf c) = s.dataFor? c := by
  obtain ⟨data, hdata, -, -, -, rfl⟩ := apply_eq_ok_iff.1 h
  rw [contents?_put_self, hdata]

/-- A change leaves the contents of every other file as they are. -/
theorem contents?_of_apply (h : s.apply c = .ok t)
    (hne : s.fileAt (s.targetOf c) ≠ s.fileAt place) : t.contents? place = s.contents? place := by
  obtain ⟨data, -, -, -, -, rfl⟩ := apply_eq_ok_iff.1 h
  exact contents?_put_of_ne (Ne.symm hne)

/-- A change leaves the directories as they are. -/
theorem isDirectory_of_apply (h : s.apply c = .ok t) (place : Location) :
    t.isDirectory place = s.isDirectory place := by
  obtain ⟨data, -, -, -, hparent, rfl⟩ := apply_eq_ok_iff.1 h
  exact isDirectory_put hparent data place

/-- A change leaves the links as they are. -/
theorem links_of_apply (h : s.apply c = .ok t) : t.links = s.links ∧ t.aliases = s.aliases := by
  obtain ⟨data, -, -, -, -, rfl⟩ := apply_eq_ok_iff.1 h
  exact ⟨rfl, rfl⟩

theorem fileAt_of_apply (h : s.apply c = .ok t) : t.fileAt = s.fileAt :=
  fileAt_congr (links_of_apply h).1 (links_of_apply h).2

/-- In a store with the same directories, a change has the same `targetOf`. -/
theorem targetOf_congr (h : ∀ place, t.isDirectory place = s.isDirectory place) (c : Change) :
    t.targetOf c = s.targetOf c := by
  cases c with
  | backUp file =>
    show t.copyPlace file = s.copyPlace file
    rw [copyPlace, copyPlace, h]
  | write file text => rfl

/-! ## Changes one after the other -/

/-- The store after `changes` made one after the other, if all can be made. -/
def applyAll (s : FileStore) (changes : List Change) : Except FileError FileStore :=
  changes.foldlM FileStore.apply s

theorem applyAll_nil_iff : s.applyAll [] = .ok t ↔ t = s := by
  constructor
  · intro h
    exact (Except.ok.inj h).symm
  · rintro rfl
    rfl

theorem applyAll_cons_iff :
    s.applyAll (c :: changes) = .ok t ↔ ∃ u, s.apply c = .ok u ∧ u.applyAll changes = .ok t := by
  rw [applyAll, List.foldlM_cons, bind_eq_ok_iff]
  rfl

theorem applyAll_append_iff : s.applyAll (done ++ rest) = .ok t ↔
    ∃ u, s.applyAll done = .ok u ∧ u.applyAll rest = .ok t := by
  rw [applyAll, List.foldlM_append, bind_eq_ok_iff]
  rfl

theorem isDirectory_of_applyAll (h : s.applyAll changes = .ok t) (place : Location) :
    t.isDirectory place = s.isDirectory place := by
  induction changes generalizing s with
  | nil => rw [applyAll_nil_iff.1 h]
  | cons c changes ih =>
    obtain ⟨u, hu, ht⟩ := applyAll_cons_iff.1 h
    rw [ih ht, isDirectory_of_apply hu]

/-- Changes leave the links as they are. -/
theorem links_of_applyAll (h : s.applyAll changes = .ok t) :
    t.links = s.links ∧ t.aliases = s.aliases := by
  induction changes generalizing s with
  | nil =>
    obtain rfl := applyAll_nil_iff.1 h
    exact ⟨rfl, rfl⟩
  | cons c changes ih =>
    obtain ⟨u, hu, ht⟩ := applyAll_cons_iff.1 h
    obtain ⟨hlinks, haliases⟩ := links_of_apply hu
    rw [← hlinks, ← haliases]
    exact ih ht

theorem fileAt_of_applyAll (h : s.applyAll changes = .ok t) : t.fileAt = s.fileAt :=
  fileAt_congr (links_of_applyAll h).1 (links_of_applyAll h).2

theorem targetOf_of_applyAll (h : s.applyAll changes = .ok t) (c : Change) :
    t.targetOf c = s.targetOf c :=
  targetOf_congr (isDirectory_of_applyAll h) c

/-- Changes leave the contents of a file as they are that none of them writes. -/
theorem contents?_of_applyAll (h : s.applyAll changes = .ok t)
    (hne : ∀ c ∈ changes, s.fileAt (s.targetOf c) ≠ s.fileAt place) :
    t.contents? place = s.contents? place := by
  induction changes generalizing s with
  | nil => rw [applyAll_nil_iff.1 h]
  | cons c changes ih =>
    obtain ⟨u, hu, ht⟩ := applyAll_cons_iff.1 h
    have hrest : ∀ d ∈ changes, u.fileAt (u.targetOf d) ≠ u.fileAt place := fun d hd => by
      rw [fileAt_of_apply hu, targetOf_congr (isDirectory_of_apply hu)]
      exact hne d (List.mem_cons_of_mem c hd)
    rw [ih ht hrest, contents?_of_apply hu (hne c List.mem_cons_self)]

/-- None of the changes that are made `CopiesToItself`. -/
theorem not_copiesToItself_of_applyAll (h : s.applyAll changes = .ok t) (hc : c ∈ changes) :
    ¬s.CopiesToItself c := by
  induction changes generalizing s with
  | nil => cases hc
  | cons d changes ih =>
    obtain ⟨u, hu, ht⟩ := applyAll_cons_iff.1 h
    rcases List.mem_cons.1 hc with rfl | hc
    · obtain ⟨-, -, hself, -⟩ := apply_eq_ok_iff.1 hu
      exact hself
    · have hrest := ih ht hc
      cases c with
      | backUp file =>
        have hcopy : u.copyPlace file = s.copyPlace file :=
          targetOf_congr (isDirectory_of_apply hu) (.backUp file)
        rwa [CopiesToItself, hcopy, fileAt_of_apply hu] at hrest
      | write file text => exact id

/-! ## What comes and goes -/

/-- Changes leave every file in its place, and its name in its directory. -/
theorem isFile_of_applyAll (h : s.applyAll changes = .ok t) (place : Location) :
    (s.isFile place = true → t.isFile place = true) ∧ (place ∈ s.entries → place ∈ t.entries) := by
  induction changes generalizing s with
  | nil =>
    rw [applyAll_nil_iff.1 h]
    exact ⟨id, id⟩
  | cons c changes ih =>
    obtain ⟨u, hu, ht⟩ := applyAll_cons_iff.1 h
    obtain ⟨data, -, -, -, -, rfl⟩ := apply_eq_ok_iff.1 hu
    exact ⟨fun hf => (ih ht).1 (isFile_put_iff.2 (.inr hf)),
      fun he => (ih ht).2 (mem_entries_put_iff.2 (.inl he))⟩

/-- Whether a store `t` may be met while `changes` are being made: some have been made, and the next
    one, if there is one, is under way, so that the file it writes may hold anything. -/
def IsMidway (s : FileStore) (changes : List Change) (t : FileStore) : Prop :=
  ∃ done rest u, changes = done ++ rest ∧ s.applyAll done = .ok u ∧
    ∀ place, (∀ c, rest.head? = some c → u.fileAt (u.targetOf c) ≠ u.fileAt place) →
      t.contents? place = u.contents? place

/-- The end of all changes `IsMidway`, too. -/
theorem isMidway_of_applyAll (h : s.applyAll changes = .ok t) : s.IsMidway changes t :=
  ⟨changes, [], t, (List.append_nil changes).symm, h, fun _ _ => rfl⟩

/-- On the way as at its end, a file that no change writes keeps its `contents?`. -/
theorem IsMidway.contents?_eq (h : s.IsMidway changes t)
    (hne : ∀ c ∈ changes, s.fileAt (s.targetOf c) ≠ s.fileAt place) :
    t.contents? place = s.contents? place := by
  obtain ⟨done, rest, u, rfl, hu, ht⟩ := h
  have hnext : ∀ c, rest.head? = some c → u.fileAt (u.targetOf c) ≠ u.fileAt place := fun c hc => by
    rw [fileAt_of_applyAll hu, targetOf_of_applyAll hu]
    exact hne c (List.mem_append_right done (List.mem_of_mem_head? hc))
  rw [ht place hnext,
    contents?_of_applyAll hu fun c hc => hne c (List.mem_append_left rest hc)]

/-- A store on the way through `changes ++ rest` is met on the way through `changes`, or on the way
    through `rest` once `changes` are made. -/
theorem IsMidway.of_append (h : s.IsMidway (changes ++ rest) t) :
    s.IsMidway changes t ∨ ∃ u, s.applyAll changes = .ok u ∧ u.IsMidway rest t := by
  obtain ⟨done, todo, u, heq, hu, ht⟩ := h
  rcases List.append_eq_append_iff.1 heq with ⟨more, rfl, rfl⟩ | ⟨more, rfl, rfl⟩
  · -- all of the former are made, and some of the latter
    obtain ⟨v, hv, hmore⟩ := applyAll_append_iff.1 hu
    exact .inr ⟨v, hv, more, todo, u, rfl, hmore, ht⟩
  · cases more with
    | nil => exact .inr ⟨u, by simpa using hu, [], rest, u, rfl, rfl, ht⟩
    | cons c more => exact .inl ⟨done, c :: more, u, rfl, hu, ht⟩

end FileStore

end ArrowLint
