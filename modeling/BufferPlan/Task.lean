import BufferPlan.Count
import BufferPlan.Edge.Map
import BufferPlan.PlanError

/-!
# Task descriptors

A task is described by maps keyed by edge id, one map for each thing that is known of an edge. The
maps need not agree: an edge exists if it is **counted**, and what the other maps hold of uncounted
ids is ignored. `Inputs.resolve` and `Outputs.resolve` join the maps into edges, ascending by id,
and refuse the first edge whose data is incomplete or zero.
-/

namespace BufferPlan

/-- An input edge whose data is complete. -/
structure InputEdge where
  id : EdgeId
  kind : Kind
  /-- The channels of each gate of the edge. -/
  channels : Count
  /-- The partitions read through the edge, one gate each. It may be zero. -/
  reuse : UInt32
deriving DecidableEq, Repr

/-- An output edge whose data is complete. -/
structure OutputEdge where
  id : EdgeId
  kind : Kind
  /-- The fan-out to downstream consumers. -/
  subpartitions : Count
deriving DecidableEq, Repr

/-! ## Inputs -/

/-- The input side of a task. -/
structure Inputs where
  /-- The channel count of every input edge. -/
  channels : EdgeMap UInt32 := ∅
  reuse : EdgeMap UInt32 := ∅
  kinds : EdgeMap Kind := ∅

namespace Inputs

instance : Inhabited Inputs := ⟨{}⟩

/-- The inputs with an edge written to all three maps. -/
def insert (s : Inputs) (id : EdgeId) (kind : Kind) (channels reuse : UInt32) : Inputs where
  channels := s.channels.insert id channels
  reuse := s.reuse.insert id reuse
  kinds := s.kinds.insert id kind

/-- The number of input edges. -/
def size (s : Inputs) : Nat := s.channels.size

/-- There is no input edge. -/
def isEmpty (s : Inputs) : Bool := s.channels.isEmpty

/-- The edge of a counted id. The kind is looked for first, then the channels are checked, then the
reuse count is looked for. -/
def edge (s : Inputs) (id : EdgeId) (channels : UInt32) : Except PlanError InputEdge :=
  match s.kinds.get? id with
  | none => .error (.badEdge id .missingKind)
  | some kind =>
    match Count.of? channels with
    | none => .error (.badEdge id .noChannels)
    | some channels =>
      match s.reuse.get? id with
      | none => .error (.badEdge id .missingReuse)
      | some reuse => .ok ⟨id, kind, channels, reuse⟩

/-- The input edges, ascending by id. -/
def resolve (s : Inputs) : Except PlanError (List InputEdge) :=
  s.channels.entries.mapM fun e => s.edge e.1 e.2

end Inputs

/-! ## Outputs -/

/-- The output side of a task. -/
structure Outputs where
  /-- The fan-out of every output edge. -/
  subpartitions : EdgeMap UInt32 := ∅
  kinds : EdgeMap Kind := ∅

namespace Outputs

instance : Inhabited Outputs := ⟨{}⟩

/-- The outputs with an edge written to both maps. -/
def insert (s : Outputs) (id : EdgeId) (kind : Kind) (subpartitions : UInt32) : Outputs where
  subpartitions := s.subpartitions.insert id subpartitions
  kinds := s.kinds.insert id kind

/-- The number of output edges. -/
def size (s : Outputs) : Nat := s.subpartitions.size

/-- There is no output edge. -/
def isEmpty (s : Outputs) : Bool := s.subpartitions.isEmpty

/-- The edge of a counted id. The kind is looked for first, then the fan-out is checked. -/
def edge (s : Outputs) (id : EdgeId) (subpartitions : UInt32) : Except PlanError OutputEdge :=
  match s.kinds.get? id with
  | none => .error (.badEdge id .missingKind)
  | some kind =>
    match Count.of? subpartitions with
    | none => .error (.badEdge id .noSubpartitions)
    | some subpartitions => .ok ⟨id, kind, subpartitions⟩

/-- The output edges, ascending by id. -/
def resolve (s : Outputs) : Except PlanError (List OutputEdge) :=
  s.subpartitions.entries.mapM fun e => s.edge e.1 e.2

end Outputs

/-- All that is known of the edges of one task. -/
structure Task where
  inputs : Inputs := {}
  outputs : Outputs := {}

instance : Inhabited Task := ⟨{}⟩

/-- The side of a task that an edge lies on. -/
inductive Side where
  | input
  | output
deriving DecidableEq, Repr

end BufferPlan
