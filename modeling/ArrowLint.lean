import ArrowLint.Main
import ArrowLint.Services
import ArrowLint.Proofs.Fallible
import ArrowLint.Proofs.Syntax.Parsed
import ArrowLint.Proofs.Syntax.Nesting
import ArrowLint.Proofs.Syntax.Preorder
import ArrowLint.Proofs.Syntax.Leading
import ArrowLint.Proofs.Syntax.Respelling
import ArrowLint.Proofs.Syntax.Phrase
import ArrowLint.Proofs.Syntax.Frame
import ArrowLint.Proofs.Candidate.Place
import ArrowLint.Proofs.Candidate.Context
import ArrowLint.Proofs.Candidate.Finding
import ArrowLint.Proofs.Candidate.Reported
import ArrowLint.Proofs.Candidate.ClassBody
import ArrowLint.Proofs.Candidate.Messages
import ArrowLint.Proofs.Candidate.Words
import ArrowLint.Proofs.Candidate.OwnName
import ArrowLint.Proofs.Candidate.NewTarget
import ArrowLint.Proofs.Candidate.Coherence
import ArrowLint.Proofs.Candidate.Header
import ArrowLint.Proofs.Fix.Selection
import ArrowLint.Proofs.Fix.Outermost
import ArrowLint.Proofs.Fix.Splice
import ArrowLint.Proofs.Fix.Range
import ArrowLint.Proofs.Fix.Nesting
import ArrowLint.Proofs.Fix.Passes
import ArrowLint.Proofs.Fix.Total
import ArrowLint.Proofs.Fix.Operand
import ArrowLint.Proofs.Fix.Replacement
import ArrowLint.Proofs.Fix.ClassField
import ArrowLint.Proofs.Fix.BodyStyle
import ArrowLint.Proofs.Fix.Moved
import ArrowLint.Proofs.Fix.TypeParameters
import ArrowLint.Proofs.Lint.Reports
import ArrowLint.Proofs.Lint.Widening
import ArrowLint.Proofs.Lint.Style
import ArrowLint.Proofs.Lint.Frames
import ArrowLint.Proofs.Lint.Visits
import ArrowLint.Proofs.Fix.Function
import ArrowLint.Proofs.Fix.Layer
import ArrowLint.Proofs.Fix.Nest
import ArrowLint.Proofs.Fix.Depth
import ArrowLint.Proofs.Fix.Greedy
import ArrowLint.Proofs.Fix.Resumed
import ArrowLint.Proofs.Run.Lines
import ArrowLint.Proofs.CommandLine.Again
import ArrowLint.Proofs.Store.Sources
import ArrowLint.Proofs.Store.LetterCase
import ArrowLint.Proofs.CommandLine.Flags
import ArrowLint.Proofs.CommandLine.Loading
import ArrowLint.Proofs.Report.Totals
import ArrowLint.Proofs.Registry.Texts
import ArrowLint.Proofs.Registry.Lookup
