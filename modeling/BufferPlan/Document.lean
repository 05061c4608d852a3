import BufferPlan.Bounds
import BufferPlan.Json.Record
import BufferPlan.Task
import BufferPlan.Tuning.Basic

/-!
# The written forms of the library's values

Kinds, ids, bounds, tuning values and task descriptors are kept in JSON documents. Each has a value
it is written as (`toValue`) and a reader (`ofValue?`) that takes more than what is written: fields
in any order or as an array, and fields left out where the type has a default.

* An id is a number, and as the key of a map the same decimal in quotes, with nothing escaped.
* A kind is its name, or an object with the name as its one member and null as the value.
* Bounds are read through `Bounds.of`, so a ceiling below the floor is lifted.
-/

namespace BufferPlan

open Json (Value Piece Fields field?)

/-! ## Ids and kinds -/

namespace EdgeId

/-- The id as a number. -/
def toValue (id : EdgeId) : Value := .ofWord id.raw

/-- The id that a number says. -/
def ofValue? (v : Value) : Option EdgeId := v.word64?.map EdgeId.mk

/-- The id as the key of a map. -/
def toKey (id : EdgeId) : List Piece := Json.pieces (Nat.toDigits 10 id.raw.toNat)

/-- The id that a key says: its characters are those of a canonical decimal. -/
def ofKey? (key : List Piece) : Option EdgeId :=
  ((Json.plain? key).bind Text.Decimal.canonical?).bind fun n =>
    (Text.Decimal.word64? n).map EdgeId.mk

end EdgeId

namespace Kind

/-- The name of the kind. -/
def toValue (k : Kind) : Value := .ofText k.name

/-- The kind of exactly that name. -/
def ofText? (s : String) : Option Kind := all.find? fun k => k.name == s

/-- The kind that a value names. -/
def ofValue? : Value → Option Kind
  | .string s => (Json.name? s).bind ofText?
  | .object [(key, .null)] => (Json.name? key).bind ofText?
  | _ => none

end Kind

/-! ## Bounds and tuning values -/

namespace Bounds

/-- The names of the fields. -/
def fieldNames : List String := ["min", "max"]

/-- The bounds as a record. A missing ceiling is null. -/
def toValue (b : Bounds) : Value :=
  .record [("min", .ofWord b.floor), ("max", .orNull .ofWord b.ceiling?)]

/-- The floor must be written. The ceiling may be null, and missing where the fields have names. -/
def ofValue? (v : Value) : Option Bounds := do
  let fields ← v.fields? fieldNames 2
  let floor ← field? fields "min" Value.word64? none
  let ceiling? ← field? fields "max" (Value.orNull? Value.word64?) (some none)
  return Bounds.of floor ceiling?

end Bounds

namespace Tuning

/-- The names of the fields. -/
def fieldNames : List String :=
  ["buffers-per-channel", "floating-buffers-per-gate", "max-required-buffers-per-gate",
    "sort-shuffle-min-parallelism", "sort-shuffle-min-buffers"]

/-- The values as a record. A missing cap is null. -/
def toValue (t : Tuning) : Value :=
  .record
    [("buffers-per-channel", .ofNat t.buffersPerChannel.toNat),
      ("floating-buffers-per-gate", .ofNat t.floatingPerGate.toNat),
      ("max-required-buffers-per-gate", .orNull (fun cap => .ofNat cap.toNat) t.gateCap),
      ("sort-shuffle-min-parallelism", .ofNat t.sortFanOut.toNat),
      ("sort-shuffle-min-buffers", .ofNat t.sortFloor.toNat)]

/-- A field that is left out has its default. The ranges are not checked. -/
def ofValue? (v : Value) : Option Tuning := do
  let fields ← v.fields? fieldNames 0
  let buffersPerChannel ← field? fields "buffers-per-channel" Value.word32?
    (some default.buffersPerChannel)
  let floatingPerGate ← field? fields "floating-buffers-per-gate" Value.word32?
    (some default.floatingPerGate)
  let gateCap ← field? fields "max-required-buffers-per-gate" (Value.orNull? Value.word32?)
    (some default.gateCap)
  let sortFanOut ← field? fields "sort-shuffle-min-parallelism" Value.word32?
    (some default.sortFanOut)
  let sortFloor ← field? fields "sort-shuffle-min-buffers" Value.word32?
    (some default.sortFloor)
  return { buffersPerChannel, floatingPerGate, gateCap, sortFanOut, sortFloor }

end Tuning

/-! ## Maps and tasks -/

namespace EdgeMap

variable {α : Type}

/-- An object with one member for each id, ascending by id. -/
def toValue (write : α → Value) (m : EdgeMap α) : Value :=
  .object (m.entries.map fun e => (e.1.toKey, write e.2))

/-- The members are inserted in the order in which they are written; each has to be read. -/
def ofValue? (read : Value → Option α) : Value → Option (EdgeMap α)
  | .object members => do
    let entries ← members.mapM fun m => do
      let id ← EdgeId.ofKey? m.1
      let a ← read m.2
      return (id, a)
    return ofList entries
  | _ => none

/-- A map of counts. -/
def ofCounts : EdgeMap UInt32 → Value := toValue fun n => .ofNat n.toNat

/-- A map of counts. -/
def counts? : Value → Option (EdgeMap UInt32) := ofValue? Value.word32?

/-- A map of kinds. -/
def ofKinds : EdgeMap Kind → Value := toValue Kind.toValue

/-- A map of kinds. -/
def kinds? : Value → Option (EdgeMap Kind) := ofValue? Kind.ofValue?

end EdgeMap

namespace Inputs

/-- The names of the fields. -/
def fieldNames : List String := ["channel_counts", "reuse_counts", "partition_kinds"]

/-- The input side as a record of maps. -/
def toValue (s : Inputs) : Value :=
  .record
    [("channel_counts", EdgeMap.ofCounts s.channels), ("reuse_counts", EdgeMap.ofCounts s.reuse),
      ("partition_kinds", EdgeMap.ofKinds s.kinds)]

/-- A map that is left out is empty. -/
def ofValue? (v : Value) : Option Inputs := do
  let fields ← v.fields? fieldNames 0
  let channels ← field? fields "channel_counts" EdgeMap.counts? (some ∅)
  let reuse ← field? fields "reuse_counts" EdgeMap.counts? (some ∅)
  let kinds ← field? fields "partition_kinds" EdgeMap.kinds? (some ∅)
  return { channels, reuse, kinds }

end Inputs

namespace Outputs

/-- The names of the fields. -/
def fieldNames : List String := ["subpartition_counts", "partition_kinds"]

/-- The output side as a record of maps. -/
def toValue (s : Outputs) : Value :=
  .record
    [("subpartition_counts", EdgeMap.ofCounts s.subpartitions),
      ("partition_kinds", EdgeMap.ofKinds s.kinds)]

/-- A map that is left out is empty. -/
def ofValue? (v : Value) : Option Outputs := do
  let fields ← v.fields? fieldNames 0
  let subpartitions ← field? fields "subpartition_counts" EdgeMap.counts? (some ∅)
  let kinds ← field? fields "partition_kinds" EdgeMap.kinds? (some ∅)
  return { subpartitions, kinds }

end Outputs

namespace Task

/-- The names of the fields. -/
def fieldNames : List String := ["inputs", "outputs"]

/-- The task as a record of its two sides. -/
def toValue (s : Task) : Value :=
  .record [("inputs", s.inputs.toValue), ("outputs", s.outputs.toValue)]

/-- A side that is left out has no edges. -/
def ofValue? (v : Value) : Option Task := do
  let fields ← v.fields? fieldNames 0
  let inputs ← field? fields "inputs" Inputs.ofValue? (some {})
  let outputs ← field? fields "outputs" Outputs.ofValue? (some {})
  return { inputs, outputs }

end Task

end BufferPlan
