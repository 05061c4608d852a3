import BufferPlan.Announcement
import BufferPlan.Bounds
import BufferPlan.Count
import BufferPlan.Document
import BufferPlan.Edge.Id
import BufferPlan.Edge.Map
import BufferPlan.Fit
import BufferPlan.Footprint
import BufferPlan.Gate
import BufferPlan.Json.Pretty
import BufferPlan.Json.Record
import BufferPlan.Json.Scan
import BufferPlan.Json.Token
import BufferPlan.Json.Value
import BufferPlan.Kind.Basic
import BufferPlan.Kind.Name
import BufferPlan.OptionError
import BufferPlan.Partition
import BufferPlan.PlanError
import BufferPlan.Proofs.Resolve
import BufferPlan.Proofs.Saturating
import BufferPlan.Proofs.Traversal
import BufferPlan.Saturating
import BufferPlan.Scenario
import BufferPlan.Task
import BufferPlan.Text.Blank
import BufferPlan.Text.Decimal
import BufferPlan.Text.Extender
import BufferPlan.Text.Hex
import BufferPlan.Text.Quoted
import BufferPlan.Text.Ranges
import BufferPlan.Text.Unseen
import BufferPlan.Trace
import BufferPlan.Tuning.Basic
import BufferPlan.Tuning.Options
import BufferPlan.Proofs.Plan
import BufferPlan.Proofs.Totals
import BufferPlan.Proofs.Failure
import BufferPlan.Proofs.Layout
import BufferPlan.Proofs.Pools
import BufferPlan.Proofs.Fit
import BufferPlan.Proofs.Events
import BufferPlan.Proofs.Maps
import BufferPlan.Proofs.Alike
import BufferPlan.Proofs.Shares
import BufferPlan.Proofs.Union
import BufferPlan.Proofs.Renaming
import BufferPlan.Proofs.Json.Number
import BufferPlan.Proofs.Json.Scan
import BufferPlan.Proofs.Json.Value
import BufferPlan.Proofs.Json.Record
import BufferPlan.Proofs.Documents
import BufferPlan.Proofs.Options
import BufferPlan.Proofs.Exact
import BufferPlan.Proofs.Growth
import BufferPlan.Proofs.Starvation
import BufferPlan.Proofs.Regimes
import BufferPlan.Proofs.Policy
import BufferPlan.Proofs.Interference
import BufferPlan.Proofs.Records
import BufferPlan.Proofs.Cap
import BufferPlan.Proofs.GatePool
import BufferPlan.Proofs.Listing
import BufferPlan.Proofs.OneEdge
import BufferPlan.Proofs.Join
import BufferPlan.Proofs.Rows
import BufferPlan.Proofs.FanOut
import BufferPlan.Proofs.Ordered
import BufferPlan.Proofs.Text.Trim
import BufferPlan.Proofs.Text.Decimal
import BufferPlan.Proofs.OptionText
import BufferPlan.Proofs.KindName
import BufferPlan.Proofs.Text.Hex
import BufferPlan.Proofs.Text.Quoted
import BufferPlan.Proofs.Message
import BufferPlan.Proofs.Json.Object
import BufferPlan.Proofs.MapText
import BufferPlan.Proofs.EdgeOrder
import BufferPlan.Proofs.Json.Grammar
import BufferPlan.Proofs.Json.Parts
import BufferPlan.Proofs.RecordText
import BufferPlan.Proofs.Integers
