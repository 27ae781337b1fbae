/-
  ArrowLint.Fix.Selection

  Which of several fixes are made at once. Fixes that overlap cannot be, so they are
  taken in source order, of two that start together the longer first, and one that
  starts ahead of the end of the last one taken is put off. A fix thus wins over those
  inside it.
-/

import ArrowLint.Log
import ArrowLint.Fix.Span

namespace ArrowLint

/-- The fixes of one pass: those `taken`, in source order, and those `deferred` to a later one. -/
structure Selection where
  taken : List Fix
  deferred : List Fix

namespace Selection

/-- Whether `a` comes no later than `b`: by its start, then the longer first. -/
def precedes (a b : Fix) : Bool :=
  a.span.start < b.span.start || (a.span.start == b.span.start && b.span.stop ≤ a.span.stop)

/-- The fixes sorted by `precedes`; equal ranges stay as they came. -/
def ordered (fixes : List Fix) : List Fix :=
  fixes.mergeSort precedes

/-- Goes through ordered fixes: one that starts ahead of `lastStop`, the end of the last one taken,
    is deferred. -/
def startingAt (lastStop : Int) : List Fix → Selection
  | [] => ⟨[], []⟩
  | fix :: fixes =>
    if fix.span.start < lastStop then
      let rest := startingAt lastStop fixes
      { rest with deferred := fix :: rest.deferred }
    else
      let rest := startingAt fix.span.stop fixes
      { rest with taken := fix :: rest.taken }

/-- The `Selection` among given fixes. Nothing has been taken at first: no offset of a source lies
    ahead of minus one. -/
def ofFixes (fixes : List Fix) : Selection :=
  startingAt (-1) (ordered fixes)

/-- The `Record` of a `fix` that is deferred. -/
def deferRecord (fix : Fix) : Record :=
  { level := .debug, origin := .fixer
    message := "Deferring overlapping fix at [" ++ toString fix.span.start ++ ", "
      ++ toString fix.span.stop ++ ")" }

/-- What is put on record about a `Selection`, a `deferRecord` for each deferred fix. -/
def log (s : Selection) : List Record :=
  s.deferred.map deferRecord

end Selection

end ArrowLint
