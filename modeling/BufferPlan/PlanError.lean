import BufferPlan.Edge.Id
import BufferPlan.Kind.Basic

/-!
# Why a task cannot be planned

There are two causes: the data of an edge is incomplete or out of range, or a result partition
that is read live has no ceiling. Both are faults of the task description, so planning it again
fails in the same way.
-/

namespace BufferPlan

/-- What is wrong with the data of one edge. -/
inductive EdgeFault where
  /-- The edge is counted but has no partition kind. -/
  | missingKind
  /-- The input edge has a channel count but no reuse count. -/
  | missingReuse
  /-- The output edge has no subpartition. -/
  | noSubpartitions
  /-- The input edge has no channel. -/
  | noChannels
deriving DecidableEq, Repr

/-- The fault in words. -/
def EdgeFault.message : EdgeFault → String
  | missingKind => "missing partition kind"
  | missingReuse => "missing partition reuse count"
  | noSubpartitions => "subpartition count must be at least 1"
  | noChannels => "input channel count must be at least 1"

/-- Why a task cannot be planned. -/
inductive PlanError where
  /-- The data of the edge is incomplete or out of range. -/
  | badEdge (edge : EdgeId) (fault : EdgeFault)
  /-- The pool of a live partition of this kind has no ceiling to announce. -/
  | unbounded (edge? : Option EdgeId) (kind : Kind)
deriving DecidableEq, Repr

namespace PlanError

/-- The edge at fault, where one is known. -/
def edge? : PlanError → Option EdgeId
  | badEdge edge _ => some edge
  | unbounded edge? _ => edge?

/-- The error placed at an edge, unless it already names one. -/
def atEdge (edge : EdgeId) : PlanError → PlanError
  | unbounded none kind => unbounded (some edge) kind
  | e => e

/-- The error in words. -/
def message : PlanError → String
  | badEdge edge fault => "Invalid edge data for " ++ edge.hex ++ ": " ++ fault.message
  | unbounded edge? kind =>
    "Unbounded announcement" ++ place edge? ++ ": partition kind " ++ kind.name
      ++ " has no finite buffer ceiling"
where
  /-- The place of the error in words, empty where none is known. -/
  place : Option EdgeId → String
    | none => ""
    | some edge => " for " ++ edge.hex

end PlanError

end BufferPlan
