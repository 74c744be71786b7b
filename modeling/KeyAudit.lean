import KeyAudit.Main
import KeyAudit.Proofs.Frame.Paths
import KeyAudit.Proofs.Key.Extraction
import KeyAudit.Proofs.Class.Cursor
import KeyAudit.Proofs.Class.Lookup
import KeyAudit.Proofs.Code.Assembly
import KeyAudit.Proofs.Code.RoundTrip
import KeyAudit.Proofs.Class.Image
import KeyAudit.Proofs.Class.RoundTrip
import KeyAudit.Proofs.Code.Complete
import KeyAudit.Proofs.Key.Allowed
import KeyAudit.Proofs.Logged
import KeyAudit.Proofs.Scan.Accounting
import KeyAudit.Proofs.Code.Refusals
import KeyAudit.Proofs.Text.Order
import KeyAudit.Proofs.Report.Wording
import KeyAudit.Proofs.Scan.Completion
import KeyAudit.Proofs.Class.DescriptorRules
import KeyAudit.Proofs.Text.ModifiedUtf8
import KeyAudit.Proofs.Key.Table
import KeyAudit.Proofs.Text.Trim
import KeyAudit.Proofs.Key.Widening
import KeyAudit.Proofs.Key.Verdict
import KeyAudit.Proofs.Audit
import KeyAudit.Proofs.Command.Validate
import KeyAudit.Proofs.Flow.Postorder
import KeyAudit.Proofs.Code.Tiling
import KeyAudit.Proofs.Code.EdgeCount
import KeyAudit.Proofs.Flow.VisitBound
import KeyAudit.Proofs.Frame.Fixpoint
import KeyAudit.Proofs.Flow.Steps
import KeyAudit.Proofs.Flow.SinglePass
import KeyAudit.Proofs.Frame.SinglePass
import KeyAudit.Proofs.Flow.Unreached
import KeyAudit.Proofs.Key.Unreached
import KeyAudit.Proofs.Flow.Moments
import KeyAudit.Proofs.Frame.Narrowing
import KeyAudit.Proofs.Key.Arguments
import KeyAudit.Proofs.Flow.Reachable
import KeyAudit.Proofs.Frame.Reachable
import KeyAudit.Proofs.Class.Truncation
import KeyAudit.Proofs.Data.Separation
import KeyAudit.Proofs.Key.Shape
import KeyAudit.Proofs.Settings.Restoring
import KeyAudit.Proofs.Settings.Unknown
import KeyAudit.Proofs.Flow.MarkedWorklist
import KeyAudit.Proofs.Flow.Semilattice
import KeyAudit.Proofs.Frame.Distribution
import KeyAudit.Proofs.Frame.Semilattice
import KeyAudit.Proofs.Text.Quotation
import KeyAudit.Proofs.Code.Drawing
import KeyAudit.Proofs.Class.Resolution
import KeyAudit.Proofs.Class.Slots
