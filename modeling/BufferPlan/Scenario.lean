import BufferPlan.Announcement
import BufferPlan.Document
import BufferPlan.Json.Pretty

/-!
# The reference scenario

One small task under fixed tuning values, written out as a document: two input gates, three result
partitions (bounded, blocking below and above the fan-out of sorted pools) and one partition that
is refused. A copy of the document is kept, so that any change of a sizing rule shows as a change of
the text.
-/

namespace BufferPlan.Scenario

open Json (Value)

/-- The tuning values of the scenario. -/
def tuning : Tuning where
  buffersPerChannel := 5
  floatingPerGate := 8
  gateCap := none
  sortFanOut := 8
  sortFloor := 12

/-- The edges of the scenario. -/
def task : Task where
  inputs := (Inputs.insert {} ⟨1⟩ .pipelinedBounded 3 1).insert ⟨2⟩ .blocking 4 1
  outputs := ((Outputs.insert {} ⟨3⟩ .pipelinedBounded 5).insert ⟨4⟩ .blocking 6).insert ⟨5⟩
    .blocking 10

/-- The entry of an input edge. -/
def gateEntry (p : Plan) (e : InputEdge) : Value :=
  let layout := Gate.layout e.kind e.channels tuning
  .record
    [("edge", .ofText e.id.hex), ("kind", e.kind.toValue), ("channels", .ofWord e.channels.word),
      ("reuse_count", .ofWord e.reuse.toUInt64),
      ("exclusive_buffers_per_channel", .ofWord layout.exclusivePerChannel),
      ("required_buffers", .ofWord layout.required),
      ("total_floating_buffers", .ofWord layout.floating),
      ("target_total_buffers", .ofWord layout.target),
      ("announced", Value.orNull .ofWord (p.buffers? e.id .input))]

/-- The entry of an output edge. -/
def partitionEntry (p : Plan) (e : OutputEdge) : Value :=
  let bounds := Partition.bounds e.kind e.subpartitions tuning
  .record
    [("edge", .ofText e.id.hex), ("kind", e.kind.toValue),
      ("subpartitions", .ofWord e.subpartitions.word),
      ("sort_shuffle", .bool (Partition.isSorted e.kind e.subpartitions tuning)),
      ("min", .ofWord bounds.floor), ("max", Value.orNull .ofWord bounds.ceiling?),
      ("announced", Value.orNull .ofWord (p.buffers? e.id .output))]

/-- The entry of a partition that is refused. -/
def refusedEntry (kind : Kind) (subpartitions : Count) : Value :=
  let bounds := Partition.bounds kind subpartitions tuning
  let error := match (Partition.announce kind bounds).outcome with
    | .ok _ => Value.null
    | .error e => .ofText e.message
  .record
    [("kind", kind.toValue), ("subpartitions", .ofWord subpartitions.word),
      ("min", .ofWord bounds.floor), ("max", Value.orNull .ofWord bounds.ceiling?),
      ("error", error)]

/-- The document of the scenario as a value. -/
def document : Except PlanError Value := do
  let p ← (task.plan Gate.Policy.standing tuning).outcome
  let inputs ← task.inputs.resolve
  let outputs ← task.outputs.resolve
  return .record
    [("_WARNING", .ofText
        "Generated by shuffle-budget-core --features vectors. Do not edit by hand."),
      ("description", .ofText
        "Network buffer announcement for two input gates and three result partitions"),
      ("constants", tuning.toValue),
      ("input_gates", .array (inputs.map (gateEntry p))),
      ("result_partitions", .array (outputs.map (partitionEntry p))),
      ("refused", .array [refusedEntry .pipelined ⟨3, by decide⟩]),
      ("inputs_total", .ofWord p.inputsTotal),
      ("outputs_total", .ofWord p.outputsTotal),
      ("total_announcement", .ofWord p.total)]

/-- The document of the scenario. -/
def text : Except PlanError String := document.map fun v => v.sorted.pretty

end BufferPlan.Scenario
