/-
  ArrowLint.Proofs.CommandLine.Exit

  The codes that calls end with. A check ends with the code for something left to report just
  when something is reported on one of its sources (`CommandLine.code_check`), and so does a dry
  run of fixing (`CommandLine.code_fix_of_dryRun`), although that asks what fixing would change
  or leave: where something is reported, either the source changes or something remains.
-/

import ArrowLint.CommandLine.Session
import ArrowLint.Proofs.Run.Originals
import ArrowLint.Proofs.Run.Reports

namespace ArrowLint

variable {w : Workspace} {mode : Workspace.FixMode} {s : FileStore} {paths : List String}

/-- A dry run with a faithful parser `IsIdle`: it has a plan for every file, and nothing to
    change. -/
theorem Workspace.isIdle_of_dryRun (hp : w.linter.parser.IsFaithful) (hdry : mode.dryRun = true)
    (s : FileStore) (files : List Location) : w.IsIdle mode s files := by
  intro file _
  have hplan : ∃ plan, w.planFix mode s file = .ok plan := by
    unfold planFix
    cases s.readText file with
    | error e => exact ⟨_, rfl⟩
    | ok source =>
      exact exists_map_eq_ok _ (Linter.exists_fixSource hp source file.toText mode.limit)
  obtain ⟨plan, hplan⟩ := hplan
  exact ⟨plan, hplan, changes_of_dryRun hdry hplan⟩

namespace CommandLine

/-- The code that an `Ending` has. There is none where the arguments are not well formed, and where
    the call breaks off. -/
def Ending.code? : Ending → Option Nat
  | .exit e => some e.code
  | _ => none

@[simp]
theorem Ending.code?_after (text : String) (ending : Ending) :
    (ending.after text).code? = ending.code? := by
  cases ending with
  | usage => rfl
  | exit e => rfl
  | failure e => rfl

variable {env : Environment} {settings : Settings} {workspace : Workspace} {wishes : Wishes}

/-- The `workspace` of a call has the parser and the directory of `env`, and the `settings`. -/
theorem workspace_of_prepare (h : (prepare env settings wishes).2 = some workspace) :
    workspace.linter.parser = env.parser ∧ workspace.settings = settings ∧
      workspace.directory = env.directory := by
  unfold prepare at h
  split at h
  · cases h
  · dsimp only at h
    split at h
    · cases h
    · obtain rfl := Option.some.inj h
      exact ⟨rfl, rfl, rfl⟩

theorem exists_lint_of_prepare (hp : env.parser.IsFaithful)
    (h : (prepare env settings wishes).2 = some workspace) (source path : String) :
    ∃ report, workspace.linter.lint source path = .ok report :=
  Linter.exists_lint (by rwa [(workspace_of_prepare h).1]) source path

theorem prepare_eq {found : Option Workspace} (h : (prepare env settings wishes).2 = found) :
    prepare env settings wishes = ((prepare env settings wishes).1, found) :=
  Prod.ext rfl h

/-- An exit code that asks `isPending` is `violationCode` just when something is. -/
theorem code_cases (isPending : Bool) :
    ((if isPending then violationCode else cleanCode) = cleanCode ∨
      (if isPending then violationCode else cleanCode) = violationCode) ∧
    ((if isPending then violationCode else cleanCode) = violationCode ↔ isPending = true) := by
  cases isPending with
  | false => decide
  | true => decide

/-- A call over files without a workspace ends with `configCode`, whichever command it is. -/
theorem code_of_prepare_eq_none (h : (prepare env settings wishes).2 = none) (s : FileStore)
    (paths : List String) :
    (check env settings s wishes paths).code? = some configCode ∧
      (fix env settings s wishes paths).2.code? = some configCode := by
  unfold check fix
  rw [prepare_eq h]
  exact ⟨rfl, rfl⟩

/-- A `check` ends with `violationCode` just when `workspace.Reports` something on its sources, and
    else with `cleanCode`. -/
theorem code_check (h : (prepare env settings wishes).2 = some workspace) (s : FileStore)
    (paths : List String)
    (hlint : ∀ file ∈ workspace.collect s (targets s env.directory paths), ∀ source,
      s.readText file = .ok source →
      ∃ report, workspace.linter.lint source file.toText = .ok report) :
    ∃ code, (check env settings s wishes paths).code? = some code ∧
      (code = cleanCode ∨ code = violationCode) ∧
      (code = violationCode ↔
        workspace.Reports s (workspace.collect s (targets s env.directory paths))) := by
  obtain ⟨run, hrun, hiff⟩ := Workspace.exists_check hlint
  obtain ⟨hcases, hwhen⟩ := code_cases run.summary.hasViolations
  unfold check
  rw [prepare_eq h]
  dsimp only
  rw [hrun]
  exact ⟨_, rfl, hcases, hwhen.trans hiff⟩

/-- A run of `fix` with a `summary` leaves its store, and ends with `violationCode` just when
    something remains or, in a dry run, would be changed. -/
theorem code_fix {summary : FixSummary} (h : (prepare env settings wishes).2 = some workspace)
    (hsummary : (workspace.fix wishes.fixMode s (targets s env.directory paths)).summary
      = .ok summary) :
    (fix env settings s wishes paths).1
        = (workspace.fix wishes.fixMode s (targets s env.directory paths)).store ∧
      ∃ code, (fix env settings s wishes paths).2.code? = some code ∧
        (code = cleanCode ∨ code = violationCode) ∧
        (code = violationCode ↔ ∃ o ∈ summary.outcomes,
          o.remaining ≠ [] ∨ wishes.dryRun = true ∧ o.isChanged = true) := by
  have hpending : (decide (0 < summary.remaining) || wishes.dryRun
        && decide (0 < summary.filesChanged)) = true ↔
      ∃ o ∈ summary.outcomes, o.remaining ≠ [] ∨ wishes.dryRun = true ∧ o.isChanged = true := by
    rw [Bool.or_eq_true, Bool.and_eq_true, decide_eq_true_eq, decide_eq_true_eq,
      FixSummary.remaining_pos_iff, FixSummary.filesChanged_pos_iff]
    grind
  obtain ⟨hcases, hwhen⟩ := code_cases
    (decide (0 < summary.remaining) || wishes.dryRun && decide (0 < summary.filesChanged))
  unfold fix
  rw [prepare_eq h]
  dsimp only
  rw [hsummary]
  exact ⟨rfl, _, rfl, hcases, hwhen.trans hpending⟩

/-- With a faithful parser, a dry run of `fix` ends with `violationCode` just when
    `workspace.Reports` something on its sources. -/
theorem code_fix_of_dryRun (hp : env.parser.IsFaithful)
    (h : (prepare env settings wishes).2 = some workspace) (hdry : wishes.dryRun = true)
    (s : FileStore) (paths : List String) :
    ∃ code, (fix env settings s wishes paths).2.code? = some code ∧
      (code = cleanCode ∨ code = violationCode) ∧
      (code = violationCode ↔
        workspace.Reports s (workspace.collect s (targets s env.directory paths))) := by
  have hparser : workspace.linter.parser.IsFaithful := by rwa [(workspace_of_prepare h).1]
  have hmode : wishes.fixMode.dryRun = true := hdry
  obtain ⟨summary, hsummary, -, -, hiff⟩ := Workspace.exists_summary_of_isIdle
    (Workspace.isIdle_of_dryRun hparser hmode s
      (workspace.collect s (targets s env.directory paths)))
  obtain ⟨-, code, hcode, hcases, hwhen⟩ := code_fix h hsummary
  refine ⟨code, hcode, hcases, ?_⟩
  rw [hwhen, ← hiff]
  simp only [hdry, true_and]
  refine exists_congr fun o => and_congr_right fun _ => ?_
  rw [FixOutcome.IsSpotless]
  grind

/-! ## Calls -/

/-- Whether a call finds settings, and `Settings.ofTable` accepts them as `settings`. -/
def Loads (env : Environment) (s : FileStore) (settings : Settings) : Prop :=
  ∃ loaded, SettingsFile.load s env.settingsParser env.directory = .ok loaded ∧
    Settings.ofTable loaded.table = .ok settings

/-- With settings that it `Loads`, a `call` does what `invoke` does under them. -/
theorem call_of_loads (h : Loads env s settings) (args : List String) :
    (call env s args).1 = (invoke env settings s args).1 ∧
      (call env s args).2.code? = (invoke env settings s args).2.code? := by
  obtain ⟨loaded, hload, htable⟩ := h
  unfold call
  rw [hload]
  dsimp only
  rw [htable]
  exact ⟨rfl, Ending.code?_after _ _⟩

/-- Whether a call over files can be followed in `workspace`: its settings are good, and so is what
    its `wishes` set over them. -/
def IsFollowedIn (env : Environment) (s : FileStore) (wishes : Wishes) (workspace : Workspace) :
    Prop :=
  ∃ settings, Loads env s settings ∧ (prepare env settings wishes).2 = some workspace

/-- With the same wishes and paths, `check` and a dry run of `fix` end with the same code. -/
theorem code_check_eq_code_fix (hp : env.parser.IsFaithful) (settings : Settings) (s : FileStore)
    (wishes : Wishes) (noBackup : Bool) (paths : List String) :
    (check env settings s wishes paths).code?
      = (fix env settings s { wishes with dryRun := true, noBackup := noBackup }
          paths).2.code? := by
  -- the further wishes of the dry run play no part in its workspace
  have hsame : prepare env settings { wishes with dryRun := true, noBackup := noBackup }
      = prepare env settings wishes := rfl
  cases hprepare : (prepare env settings wishes).2 with
  | none =>
    rw [(code_of_prepare_eq_none hprepare s paths).1,
      (code_of_prepare_eq_none (by rw [hsame, hprepare]) s paths).2]
  | some workspace =>
    obtain ⟨code, hcode, hcases, hwhen⟩ := code_check hprepare s paths
      fun file _ source _ => exists_lint_of_prepare hp hprepare source file.toText
    obtain ⟨code', hcode', hcases', hwhen'⟩ :=
      code_fix_of_dryRun hp (by rw [hsame, hprepare]) rfl s paths
    rw [hcode, hcode', Option.some_inj]
    have hiff := hwhen.trans hwhen'.symm
    rcases hcases with rfl | rfl
    · exact (hcases'.resolve_right fun hv => absurd (hiff.2 hv) (by decide)).symm
    · exact (hiff.1 rfl).symm

/-- With a faithful parser, `check` and a dry run of `fix` with the same wishes and paths end with
    the same code; and where the call `IsFollowedIn` a workspace, that code tells whether the
    workspace `Reports` something on one of its sources. -/
theorem dryRun_ends_like_check (env : Environment) (hp : env.parser.IsFaithful) (s : FileStore)
    {checkArgs fixArgs : List String} {wishes : Wishes} {noBackup : Bool} {paths : List String}
    (hcheck : env.console.read checkArgs = some (.check wishes paths))
    (hfix : env.console.read fixArgs
      = some (.fix { wishes with dryRun := true, noBackup := noBackup } paths)) :
    (call env s checkArgs).2.code? = (call env s fixArgs).2.code? ∧
    ∀ workspace, IsFollowedIn env s wishes workspace →
      ∃ code, (call env s checkArgs).2.code? = some code ∧
        (code = cleanCode ∨ code = violationCode) ∧
        (code = violationCode ↔
          workspace.Reports s (workspace.collect s (targets s env.directory paths))) := by
  refine ⟨?_, ?_⟩
  · unfold call
    split
    · rfl
    · rfl
    · dsimp only
      split
      · rfl
      · next settings _ =>
        simp only [invoke, hcheck, hfix, Ending.code?_after]
        exact code_check_eq_code_fix hp settings s wishes noBackup paths
  · rintro workspace ⟨settings, hloads, hprepare⟩
    obtain ⟨code, hcode, hcases, hwhen⟩ := code_check hprepare s paths
      fun file _ source _ => exists_lint_of_prepare hp hprepare source file.toText
    refine ⟨code, ?_, hcases, hwhen⟩
    rw [(call_of_loads hloads checkArgs).2, invoke, hcheck]
    exact hcode

/-- The surroundings of the project with `function f() {}`, which has no settings file. -/
def Environment.emptyFunction : Environment :=
  { directory := ⟨["p"]⟩, parser := .emptyFunction, settingsParser := fun _ => none }

/-- A check and a dry run over `function f() {}`, on which the function is reported. -/
theorem dryRun_ends_like_check_emptyFunction :
    ∃ workspace, IsFollowedIn .emptyFunction .emptyFunction {} workspace ∧
      workspace.Reports .emptyFunction (workspace.collect .emptyFunction ["a.ts"]) ∧
      (call .emptyFunction .emptyFunction ["check", "a.ts"]).2.code? = some violationCode ∧
      (call .emptyFunction .emptyFunction ["fix", "--dry-run", "a.ts"]).2.code?
        = some violationCode := by
  have hcheckArgs : Environment.emptyFunction.console.read ["check", "a.ts"]
      = some (.check {} ["a.ts"]) := rfl
  have hfixArgs : Environment.emptyFunction.console.read ["fix", "--dry-run", "a.ts"]
      = some (.fix { dryRun := true } ["a.ts"]) := rfl
  obtain ⟨hsame, hwhen⟩ := dryRun_ends_like_check .emptyFunction Parser.isFaithful_emptyFunction
    .emptyFunction hcheckArgs hfixArgs
  have hcheck : (call .emptyFunction .emptyFunction ["check", "a.ts"]).2.code?
      = some violationCode := by decide +kernel
  have hfollowed : ∃ workspace, IsFollowedIn .emptyFunction .emptyFunction {} workspace :=
    ⟨_, _, ⟨_, rfl, rfl⟩, rfl⟩
  obtain ⟨workspace, hfollowed⟩ := hfollowed
  obtain ⟨code, hcode, -, hreports⟩ := hwhen workspace hfollowed
  rw [hcheck] at hcode
  exact ⟨workspace, hfollowed, hreports.1 (Option.some.inj hcode).symm, hcheck, hsame ▸ hcheck⟩

end CommandLine

end ArrowLint
