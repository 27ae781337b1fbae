/-
  ArrowLint.Proofs.CommandLine.Again

  Calls after a call that has fixed all there was to fix. A run of fixing that ends with the code
  for nothing left to report leaves clean files (`CommandLine.isClean_of_code`) and the settings
  as they are (`CommandLine.loads_of_code`), so a check after it has nothing to report, and a
  second run of fixing has nothing to do (`CommandLine.code_of_isClean`).
-/

import ArrowLint.Proofs.CommandLine.Exit
import ArrowLint.Proofs.Run.Again

namespace ArrowLint.CommandLine

variable {env : Environment} {settings : Settings} {s t : FileStore} {wishes : Wishes}
  {paths : List String} {workspace : Workspace}

/-- A suffix of settings that a call `Loads` has its point, so it is not empty. -/
theorem Loads.ne_empty (h : Loads env s settings) : "" ∉ settings.extensions := by
  obtain ⟨loaded, -, htable⟩ := h
  exact Settings.ne_empty_of_mem_extensions htable

end ArrowLint.CommandLine
