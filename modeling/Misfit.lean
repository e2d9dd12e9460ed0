import Misfit.Hint.Union
import Misfit.Proofs.Finding
import Misfit.Proofs.Hierarchy.Descends
import Misfit.Proofs.Hierarchy.WellBuilt
import Misfit.Proofs.Hierarchy.Order
import Misfit.Proofs.Hint.Parts
import Misfit.Proofs.Value.Parts
import Misfit.Violation
import Misfit.Proofs.Hint.Visits
import Misfit.Proofs.Hint.Accepts
import Misfit.Proofs.Query.Answer
import Misfit.Proofs.Query.Verdict
import Misfit.Proofs.Query.Union
import Misfit.Proofs.Text.AgreeBeyond
import Misfit.Proofs.Value.Excerpt
import Misfit.Proofs.Query.Blame
import Misfit.Proofs.Query.Vacuous
import Misfit.Proofs.PartByPart
import Misfit.Proofs.Value.Equality
import Misfit.Proofs.Hint.Equality
import Misfit.Proofs.Query.PlainUnion
import Misfit.Proofs.Query.Provenance
import Misfit.Proofs.Query.Presentation
import Misfit.Proofs.Finding.Compare
import Misfit.Proofs.Query.Reordered
import Misfit.Proofs.Query.Unneeded
import Misfit.Proofs.Text.OneLine
import Misfit.Proofs.Value.OneLine
import Misfit.Proofs.Hint.OneLine
import Misfit.Proofs.Cause.Outline
import Misfit.Proofs.Query.Indent
import Misfit.Proofs.Hierarchy.Extends
import Misfit.Proofs.Hierarchy.Latest
import Misfit.Proofs.Hierarchy.Run
import Misfit.Proofs.Cause.Scope
import Misfit.Proofs.Value.Settled
import Misfit.Proofs.Hint.Settled
import Misfit.Proofs.Query.Extended
import Misfit.Proofs.Query.Wider
import Misfit.Proofs.Query.Equal
import Misfit.Proofs.Query.Misfits
import Misfit.Proofs.Query.Introduction
import Misfit.Proofs.Query.Report
import Misfit.Proofs.Runs
import Misfit.Proofs.Cause.Nesting
import Misfit.Proofs.Cause.Reading
import Misfit.Proofs.Query.Nesting
import Misfit.Proofs.Reading
import Misfit.Proofs.Text.Reading
import Misfit.Proofs.Value.Reading
import Misfit.Proofs.Number.Shortest
import Misfit.Proofs.Number.Positional
import Misfit.Proofs.Duplicates
import Misfit.Proofs.Hint.Plain
import Misfit.Proofs.Text.NoLonger
import Misfit.Proofs.Value.Uncut
import Misfit.Proofs.Text.Grown
import Misfit.Proofs.Query.Limit
import Misfit.Proofs.Value.Preorder
import Misfit.Proofs.Equality
import Misfit.Proofs.Text.Cut
import Misfit.Proofs.Violation
import Misfit.Proofs.Hint.Reading
