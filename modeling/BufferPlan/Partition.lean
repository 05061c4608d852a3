import BufferPlan.Bounds
import BufferPlan.Count
import BufferPlan.Kind.Basic
import BufferPlan.Tuning.Basic

/-!
# Result partitions

A result partition writes to its subpartitions from one pool. The bounds of the pool follow from
the kind and the fan-out:

* a blocking partition of large fan-out is **sorted**: one shared pool, whose floor is a tuning
  value and whose ceiling is four buffers a subpartition;
* every other partition has a floor of one buffer more than it has subpartitions;
* a bounded partition has the ceiling its channels and floating buffers give, and the rest have
  none.

Whatever is announced for a pool lies between its floor and its ceiling (`announced?_between`).
-/

namespace BufferPlan.Partition

/-- The most buffers of a sorted pool, per subpartition. -/
def sortFactor : UInt64 := 4

/-- The partition is written through one sorted pool. -/
def isSorted (kind : Kind) (subpartitions : Count) (t : Tuning) : Bool :=
  kind.isBlocking && decide (t.sortFanOut ≤ subpartitions.val)

/-- The bounds of the pool of a result partition. -/
def bounds (kind : Kind) (subpartitions : Count) (t : Tuning) : Bounds :=
  let sorted := isSorted kind subpartitions t
  let floor := if sorted then t.sortFloor.toUInt64 else subpartitions.word + 1
  if kind.isBounded then
    Bounds.between floor
      (subpartitions.word * t.buffersPerChannel.toUInt64 + t.floatingPerGate.toUInt64)
  else if sorted then Bounds.between floor (sortFactor * subpartitions.word)
  else Bounds.atLeast floor

/-- The buffers announced for a pool: its ceiling if consumers may hold every buffer, and its floor
if buffers come back without waiting for them. `none` if the ceiling is needed and missing. -/
def announced? (kind : Kind) (b : Bounds) : Option UInt64 :=
  if kind.isLive then b.ceiling? else some b.floor

theorem ordered_bounds (kind : Kind) (n : Count) (t : Tuning) : (bounds kind n t).Ordered := by
  unfold bounds
  dsimp only
  split
  · exact Bounds.ordered_between _ _
  · split
    · exact Bounds.ordered_between _ _
    · exact Bounds.ordered_atLeast _

/-- **What is announced lies between the floor and the ceiling.** -/
theorem announced?_between {kind : Kind} {b : Bounds} {n : UInt64} (hb : b.Ordered)
    (h : announced? kind b = some n) : b.floor ≤ n ∧ ∀ c ∈ b.ceiling?, n ≤ c := by
  unfold announced? at h
  split at h
  · refine ⟨hb n h, fun c hc => ?_⟩
    rw [Option.some.inj (h.symm.trans hc)]
    exact UInt64.le_refl _
  · rw [← Option.some.inj h]
    exact ⟨UInt64.le_refl _, hb⟩

end BufferPlan.Partition
