import BufferPlan.Gate
import BufferPlan.Partition
import BufferPlan.Saturating
import BufferPlan.Task

/-!
# The pools of a task

Once a task runs, every input edge has its gates and every output edge its pool, laid out by the
bounds of this library whatever policy the announcement followed. A `Pool` says how many buffers
one edge can hold at the same time:

* a gate holds what its channels pin and its whole floating pool;
* a live result partition can grow to the ceiling of its pool;
* a blocking one keeps only its floor, as the rest is recycled.
-/

namespace BufferPlan

/-- The buffers one edge can hold. -/
structure Pool where
  edge : EdgeId
  side : Side
  /-- The bounds the pool is made with. -/
  bounds : Bounds
  /-- The buffers pinned to channels, outside the pool. -/
  exclusive : UInt64
  /-- The most buffers held at the same time, or `none` if the pool can grow without limit. -/
  peak? : Option UInt64
deriving DecidableEq, Repr

/-- The gates of an input edge. Channels pin their buffers only if that leaves a required buffer to
float, and a gate never holds fewer buffers than it requires. -/
def InputEdge.pool (t : Tuning) (e : InputEdge) : Pool :=
  let layout := Gate.layout e.kind e.channels t
  let pinned := e.channels.word * (Gate.channelBuffers t.buffersPerChannel).toUInt64
  let exclusive := if pinned < layout.required then pinned else 0
  let bounds := layout.floatingPool e.channels
  { edge := e.id
    side := .input
    bounds := bounds
    exclusive := exclusive
    peak? := bounds.ceiling?.map fun ceiling =>
      Saturating.mul (max (exclusive + ceiling) layout.required) e.reuse.toUInt64 }

/-- The pool of an output edge. -/
def OutputEdge.pool (t : Tuning) (e : OutputEdge) : Pool :=
  let bounds := Partition.bounds e.kind e.subpartitions t
  { edge := e.id
    side := .output
    bounds := bounds
    exclusive := 0
    peak? := if e.kind.isLive then bounds.ceiling? else some bounds.floor }

/-- The pools of a task, inputs first. -/
def Task.pools (t : Tuning) (task : Task) : Except PlanError (List Pool) := do
  let inputs ← task.inputs.resolve
  let outputs ← task.outputs.resolve
  return inputs.map (InputEdge.pool t) ++ outputs.map (OutputEdge.pool t)

/-- The buffers all pools hold at their peaks, or `none` if one can grow without limit. -/
def footprint? (pools : List Pool) : Option UInt64 :=
  pools.foldlM (fun total pool => pool.peak?.map (Saturating.add total)) 0

end BufferPlan
