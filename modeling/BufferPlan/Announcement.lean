import BufferPlan.Gate
import BufferPlan.Partition
import BufferPlan.Saturating
import BufferPlan.Task
import BufferPlan.Trace

/-!
# The announcement of a task

Before a task gets its network buffers it announces how many it needs in all. Each edge has a
share:

* an input edge announces the requirement of one gate, as often as it is reused;
* a live result partition announces the ceiling of its pool, since a slow consumer may hold every
  buffer; a blocking one announces the floor, since its buffers come back by themselves.

`Task.plan` adds up the shares, inputs before outputs and ascending by id on each side. One edge at
fault fails the whole task: a partial total would admit it with too little memory.
-/

namespace BufferPlan

/-! ## Shares and plans -/

/-- The part of the announcement that one edge adds. -/
structure Share where
  edge : EdgeId
  side : Side
  kind : Kind
  buffers : UInt64
deriving DecidableEq, Repr

/-- The shares of a task and their totals. -/
structure Plan where
  shares : List Share := []
  inputsTotal : UInt64 := 0
  outputsTotal : UInt64 := 0
deriving DecidableEq, Repr

namespace Plan

/-- The announcement, held at the largest word. -/
def total (p : Plan) : UInt64 := Saturating.add p.inputsTotal p.outputsTotal

/-- What an edge announces on one side of the task. -/
def buffers? (p : Plan) (edge : EdgeId) (side : Side) : Option UInt64 :=
  (p.shares.find? fun s => s.edge = edge ∧ s.side = side).map Share.buffers

/-- The plan with one share more. -/
def push (p : Plan) (s : Share) : Plan :=
  match s.side with
  | .input =>
    { p with
      shares := p.shares ++ [s]
      inputsTotal := Saturating.add p.inputsTotal s.buffers }
  | .output =>
    { p with
      shares := p.shares ++ [s]
      outputsTotal := Saturating.add p.outputsTotal s.buffers }

/-- The plan of a list of shares. -/
def ofShares (l : List Share) : Plan := l.foldl push {}

end Plan

/-! ## What one edge announces -/

/-- What an input edge announces: one gate for each reused partition. -/
def InputEdge.announced (policy : Gate.Policy) (t : Tuning) (e : InputEdge) : UInt64 :=
  Saturating.mul (policy e.kind e.channels t) e.reuse.toUInt64

/-- The share of an input edge. -/
def InputEdge.share (policy : Gate.Policy) (t : Tuning) (e : InputEdge) : Traced Share := do
  let buffers := e.announced policy t
  Traced.report (.inputPlanned e.id e.kind e.channels e.reuse buffers)
  return ⟨e.id, .input, e.kind, buffers⟩

/-- What a result partition announces for a pool. A ceiling that does not exist is refused. -/
def Partition.announce (kind : Kind) (b : Bounds) : Traced UInt64 :=
  match announced? kind b with
  | some buffers => pure buffers
  | none => do
    Traced.report (.refused kind)
    Traced.ofExcept (.error (.unbounded none kind))

/-- What an output edge announces. -/
def OutputEdge.announce (t : Tuning) (e : OutputEdge) : Traced UInt64 :=
  (Partition.announce e.kind (Partition.bounds e.kind e.subpartitions t)).mapError
    (PlanError.atEdge e.id)

/-- The share of an output edge. -/
def OutputEdge.share (t : Tuning) (e : OutputEdge) : Traced Share := do
  let buffers ← e.announce t
  Traced.report (.outputPlanned e.id e.kind e.subpartitions buffers)
  return ⟨e.id, .output, e.kind, buffers⟩

/-! ## The whole task -/

namespace Task

/-- Plans every edge of a task. The inputs are planned before the outputs are looked at. -/
def plan (policy : Gate.Policy) (t : Tuning) (task : Task) : Traced Plan := do
  let inputs ← Traced.ofExcept task.inputs.resolve
  let inputShares ← inputs.mapM (InputEdge.share policy t)
  let outputs ← Traced.ofExcept task.outputs.resolve
  let outputShares ← outputs.mapM (OutputEdge.share t)
  let p := Plan.ofShares (inputShares ++ outputShares)
  Traced.report (.announced p.inputsTotal p.outputsTotal p.total)
  return p

/-- The buffers a task announces in all. -/
def announcement (policy : Gate.Policy) (t : Tuning) (task : Task) : Traced UInt64 :=
  Plan.total <$> task.plan policy t

end Task

end BufferPlan
