/-!
# Tuning values

The values by which a cluster tunes its network pools. They are the same for every task, and the
planner only reads them.
-/

namespace BufferPlan

/-- The tuning values of a cluster. -/
structure Tuning where
  /-- Exclusive buffers of an input channel, and buffers of a bounded subpartition. -/
  buffersPerChannel : UInt32 := 2
  /-- Floating buffers of a gate or of a bounded result partition. -/
  floatingPerGate : UInt32 := 8
  /-- The most buffers one gate may require, if the cluster sets a limit. -/
  gateCap : Option UInt32 := none
  /-- The fan-out from which a blocking result partition shares one sorted pool. -/
  sortFanOut : UInt32 := 1
  /-- The floor of a sorted pool. -/
  sortFloor : UInt32 := 512
deriving DecidableEq, Repr

/-- The values of a cluster that sets none. -/
def Tuning.default : Tuning := {}

instance : Inhabited Tuning := ⟨Tuning.default⟩

end BufferPlan
