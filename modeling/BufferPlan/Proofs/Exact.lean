import BufferPlan.Proofs.Pools

/-!
# Sizing is exact

Gates and pools of result partitions are sized by plain 64-bit sums, products and differences,
which would wrap without notice. They never do. This file computes the same sizes in natural
numbers, with every number on the way (`Gate.Exact.steps`, `Partition.Exact.steps`): each of them is
below `2 ^ 64`, and nothing is subtracted from a smaller number. So the words are the exact sizes.

The largest gate is close to the end: its exclusive buffers alone come to `(2 ^ 32 - 1) ^ 2`, which
leaves room for two more 32-bit counts and no more.

* `Gate.Exact.pinned_le_required`, `Gate.Exact.required_le_target`: why no difference falls below
  zero.
* `Gate.Exact.lt_of_mem_steps`, `Partition.Exact.lt_of_mem_steps`: why nothing wraps.
* `Gate.Exact.toNat_target` and the like: each word is the exact size.
* **`sizing_never_overflows`**: all of it, for every kind, count and tuning value.
-/

namespace BufferPlan

namespace Gate.Exact

variable (kind : Kind) (n : Count) (t : Tuning)

/-! ## The sizes of a gate in natural numbers -/

/-- The most buffers a gate requires. -/
def threshold : Nat :=
  match t.gateCap with
  | some cap => cap.toNat
  | none => if kind.isLive then 2 ^ 64 - 1 else 1000

/-- The buffers without which the gate cannot run. -/
def required : Nat := min (threshold kind t) (allExclusive n t + 1)

/-- All exclusive and all floating buffers, before a cap. -/
def full : Nat := allExclusive n t + t.floatingPerGate.toNat

/-- All exclusive and all floating buffers, within the cap. -/
def capped : Nat :=
  match t.gateCap with
  | some cap => min (full n t) cap.toNat
  | none => full n t

/-- Pinned and floating buffers together, at full size. -/
def target : Nat := max (required kind n t) (capped n t)

/-- The buffers pinned to each channel. -/
def exclusivePerChannel : Nat :=
  if required kind n t ≤ allExclusive n t then 0 else t.buffersPerChannel.toNat

/-- The buffers pinned to all channels. -/
def pinned : Nat := n.val.toNat * exclusivePerChannel kind n t

/-- The most buffers that float. -/
def floating : Nat := target kind n t - pinned kind n t

/-- The part of the required buffers that floats. -/
def requiredFloating : Nat := required kind n t - pinned kind n t

/-- The ceiling of the floating pool. -/
def ceiling : Nat := max (floating kind n t) (requiredFloating kind n t)

/-- The pinned buffers as the pool of the gate decides on them. -/
def poolExclusive : Nat := if allExclusive n t < required kind n t then allExclusive n t else 0

/-- What the gate holds when its floating pool is full. -/
def held : Nat := poolExclusive kind n t + ceiling kind n t

/-- The most buffers one gate holds. -/
def peak : Nat := max (held kind n t) (required kind n t)

/-- Every number that sizing a gate and its pool goes through. -/
def steps : List Nat :=
  [n.val.toNat, t.buffersPerChannel.toNat, t.floatingPerGate.toNat, threshold kind t,
    allExclusive n t, allExclusive n t + 1, required kind n t, full n t, capped n t,
    target kind n t, exclusivePerChannel kind n t, pinned kind n t, floating kind n t,
    requiredFloating kind n t, ceiling kind n t, poolExclusive kind n t, held kind n t,
    peak kind n t]

/-! ## Why nothing wraps -/

theorem pinned_eq :
    pinned kind n t = if required kind n t ≤ allExclusive n t then 0 else allExclusive n t := by
  unfold pinned exclusivePerChannel
  split
  · exact Nat.mul_zero _
  · rfl

/-- **What is required is at least what is pinned**, since channels pin their buffers only if that
leaves a required buffer to float. -/
theorem pinned_le_required : pinned kind n t ≤ required kind n t := by
  rw [pinned_eq]
  split
  · exact Nat.zero_le _
  · omega

theorem required_le_target : required kind n t ≤ target kind n t := Nat.le_max_left _ _

/-- The pool decides as the layout does. -/
theorem poolExclusive_eq_pinned : poolExclusive kind n t = pinned kind n t := by
  rw [pinned_eq, poolExclusive]
  by_cases h : required kind n t ≤ allExclusive n t
  · rw [if_pos h, if_neg (Nat.not_lt.mpr h)]
  · rw [if_neg h, if_pos (Nat.lt_of_not_le h)]

theorem ceiling_eq_floating : ceiling kind n t = floating kind n t := by
  have := required_le_target kind n t
  unfold ceiling floating requiredFloating
  omega

/-- What is pinned and what floats make up the target. -/
theorem held_eq_target : held kind n t = target kind n t := by
  have hpinned := pinned_le_required kind n t
  have htarget := required_le_target kind n t
  rw [held, poolExclusive_eq_pinned, ceiling_eq_floating, floating]
  omega

theorem peak_eq_target : peak kind n t = target kind n t := by
  rw [peak, held_eq_target]
  exact Nat.max_eq_left (required_le_target kind n t)

theorem required_le : required kind n t ≤ allExclusive n t + 1 := Nat.min_le_right _ _

theorem capped_le_full : capped n t ≤ full n t := by
  unfold capped
  split
  · exact Nat.min_le_left _ _
  · exact Nat.le_refl _

theorem full_lt : full n t < 2 ^ 64 - 1 := by
  have hall := allExclusive_le n t
  have hf := t.floatingPerGate.toNat_lt
  unfold full
  omega

theorem threshold_lt : threshold kind t < 2 ^ 64 := by
  unfold threshold
  split
  · rename_i cap _
    have := cap.toNat_lt
    omega
  · split
    · decide
    · decide

/-- **Nothing wraps.** -/
theorem lt_of_mem_steps {v : Nat} (h : v ∈ steps kind n t) : v < 2 ^ 64 := by
  have hn := n.val.toNat_lt
  have hb := t.buffersPerChannel.toNat_lt
  have hf := t.floatingPerGate.toNat_lt
  have hall := allExclusive_le n t
  have hthreshold := threshold_lt kind t
  have hfull := full_lt n t
  have hrequired := required_le kind n t
  have hcapped := capped_le_full n t
  have hexclusive : exclusivePerChannel kind n t ≤ t.buffersPerChannel.toNat := by
    unfold exclusivePerChannel
    split
    · exact Nat.zero_le _
    · exact Nat.le_refl _
  have hpinned := pinned_le_required kind n t
  have htarget : target kind n t = max (required kind n t) (capped n t) := rfl
  have hrf : requiredFloating kind n t ≤ required kind n t := Nat.sub_le _ _
  have hfloating : floating kind n t ≤ target kind n t := Nat.sub_le _ _
  simp only [steps, ceiling_eq_floating, poolExclusive_eq_pinned, held_eq_target, peak_eq_target,
    List.mem_cons, List.not_mem_nil, or_false] at h
  omega

/-! ## The words are the exact sizes -/

theorem toNat_threshold : (Gate.threshold kind t).toNat = threshold kind t := by
  unfold Gate.threshold threshold
  cases t.gateCap with
  | some cap => exact UInt32.toNat_toUInt64 cap
  | none =>
    show (if kind.isLive then liveThreshold else blockingThreshold).toNat = _
    split
    · rfl
    · rfl

theorem toNat_required : (layout kind n t).required.toNat = required kind n t := by
  rw [Gate.toNat_required, toNat_threshold, required]

theorem toNat_target : (layout kind n t).target.toNat = target kind n t := by
  rw [Gate.toNat_target, toNat_required, target, capped]
  cases t.gateCap with
  | none => rfl
  | some cap => rfl

theorem toNat_exclusivePerChannel :
    (layout kind n t).exclusivePerChannel.toNat = exclusivePerChannel kind n t := by
  have hall := Gate.toNat_allExclusive n t
  have hle : (layout kind n t).required ≤
      n.word * (channelBuffers t.buffersPerChannel).toUInt64 ↔
      required kind n t ≤ allExclusive n t := by
    rw [UInt64.le_iff_toNat_le, hall, toNat_required]
  show (if (layout kind n t).required ≤ n.word * (channelBuffers t.buffersPerChannel).toUInt64
    then 0 else (channelBuffers t.buffersPerChannel).toUInt64 : UInt64).toNat = _
  unfold exclusivePerChannel
  by_cases h : required kind n t ≤ allExclusive n t
  · rw [if_pos h, if_pos (hle.mpr h)]
    rfl
  · rw [if_neg h, if_neg (mt hle.mp h)]
    exact UInt32.toNat_toUInt64 _

theorem gate_pinned_eq : Gate.pinned kind n t = pinned kind n t := by
  rw [Gate.pinned, toNat_required, ← poolExclusive_eq_pinned, poolExclusive]

theorem toNat_floating : (layout kind n t).floating.toNat = floating kind n t := by
  rw [Gate.toNat_floating, toNat_target, gate_pinned_eq, floating]

theorem toNat_requiredFloating :
    ((layout kind n t).requiredFloating n).toNat = requiredFloating kind n t := by
  rw [Gate.toNat_requiredFloating, toNat_required, gate_pinned_eq, requiredFloating]

/-- The floating pool is laid out exactly, and its ceiling is not lifted to its floor. -/
theorem toNat_floatingPool :
    ((layout kind n t).floatingPool n).floor.toNat = requiredFloating kind n t ∧
      ((layout kind n t).floatingPool n).ceiling?.map UInt64.toNat = some (ceiling kind n t) := by
  rw [floatingPool_eq, ceiling_eq_floating, Option.map_some, toNat_floating]
  exact ⟨toNat_requiredFloating kind n t, rfl⟩

end Gate.Exact

/-! ## The pool of a gate -/

namespace InputEdge

variable {t : Tuning} (e : InputEdge)

theorem toNat_exclusive_pool_eq :
    (e.pool t).exclusive.toNat = Gate.Exact.poolExclusive e.kind e.channels t := by
  rw [toNat_exclusive_pool, Gate.Exact.gate_pinned_eq, Gate.Exact.poolExclusive_eq_pinned]

/-- The peak of one gate is exact; only the product with the reuse count may be clamped. -/
theorem exists_peak?_pool :
    ∃ peak : UInt64, peak.toNat = Gate.Exact.peak e.kind e.channels t ∧
      (e.pool t).peak? = some (Saturating.mul peak e.reuse.toUInt64) := by
  refine ⟨(Gate.layout e.kind e.channels t).target, ?_, e.peak?_pool⟩
  rw [Gate.Exact.toNat_target, Gate.Exact.peak_eq_target]

end InputEdge

/-! ## Result partitions -/

namespace Partition.Exact

variable (kind : Kind) (n : Count) (t : Tuning)

/-- The floor of the pool. -/
def floor : Nat := if isSorted kind n t then t.sortFloor.toNat else n.val.toNat + 1

/-- The buffers of all subpartitions. -/
def subpartitionBuffers : Nat := n.val.toNat * t.buffersPerChannel.toNat

/-- The ceiling of a bounded pool, before it is lifted to the floor. -/
def boundedCeiling : Nat := subpartitionBuffers n t + t.floatingPerGate.toNat

/-- The ceiling of a sorted pool, before it is lifted to the floor. -/
def sortedCeiling : Nat := 4 * n.val.toNat

/-- The ceiling of the pool, if it has one. -/
def ceiling? : Option Nat :=
  if kind.isBounded then some (max (boundedCeiling n t) (floor kind n t))
  else if isSorted kind n t then some (max (sortedCeiling n) (floor kind n t))
  else none

/-- Every number that the bounds of a pool go through. -/
def steps : List Nat :=
  [n.val.toNat, t.sortFanOut.toNat, t.sortFloor.toNat, n.val.toNat + 1, floor kind n t,
    t.buffersPerChannel.toNat, t.floatingPerGate.toNat, subpartitionBuffers n t,
    boundedCeiling n t, max (boundedCeiling n t) (floor kind n t), sortedCeiling n,
    max (sortedCeiling n) (floor kind n t)]

theorem floor_lt : floor kind n t < 2 ^ 33 := by
  have hn := n.val.toNat_lt
  have hl := t.sortFloor.toNat_lt
  unfold floor
  split
  · omega
  · omega

theorem boundedCeiling_lt : boundedCeiling n t < 2 ^ 64 := by
  have := Gate.Exact.full_lt n t
  have heq : boundedCeiling n t = Gate.Exact.full n t := rfl
  omega

/-- **Nothing wraps.** -/
theorem lt_of_mem_steps {v : Nat} (h : v ∈ steps kind n t) : v < 2 ^ 64 := by
  have hn := n.val.toNat_lt
  have hb := t.buffersPerChannel.toNat_lt
  have hf := t.floatingPerGate.toNat_lt
  have hp := t.sortFanOut.toNat_lt
  have hl := t.sortFloor.toNat_lt
  have hfloor := floor_lt kind n t
  have hbounded := boundedCeiling_lt n t
  have hall : subpartitionBuffers n t ≤ boundedCeiling n t := Nat.le_add_right _ _
  have hsorted : sortedCeiling n = 4 * n.val.toNat := rfl
  simp only [steps, List.mem_cons, List.not_mem_nil, or_false] at h
  omega

/-! ### The words are the exact bounds -/

theorem toNat_word : n.word.toNat = n.val.toNat := UInt32.toNat_toUInt64 _

theorem toNat_floor : (bounds kind n t).floor.toNat = floor kind n t := by
  have hfloor : (bounds kind n t).floor =
      if isSorted kind n t then t.sortFloor.toUInt64 else n.word + 1 := by
    unfold bounds
    dsimp only
    split
    · rfl
    · split
      · rfl
      · rfl
  rw [hfloor, floor]
  split
  · exact UInt32.toNat_toUInt64 _
  · have hn := n.val.toNat_lt
    rw [toNat_add_of_lt, toNat_word, UInt64.toNat_one]
    rw [toNat_word, UInt64.toNat_one, UInt64.size]
    omega

theorem toNat_sortedCeiling : (sortFactor * n.word).toNat = sortedCeiling n := by
  have hn := n.val.toNat_lt
  have hfactor : sortFactor.toNat = 4 := rfl
  rw [UInt64.toNat_mul, toNat_word, hfactor]
  apply Nat.mod_eq_of_lt
  omega

theorem map_toNat_ceiling? : (bounds kind n t).ceiling?.map UInt64.toNat = ceiling? kind n t := by
  have hfloor := toNat_floor kind n t
  unfold ceiling?
  by_cases hbounded : kind.isBounded = true
  · have hceiling : (bounds kind n t).ceiling? = some
        (max (n.word * t.buffersPerChannel.toUInt64 + t.floatingPerGate.toUInt64)
          (bounds kind n t).floor) := by
      unfold bounds
      dsimp only
      rw [if_pos hbounded]
      rfl
    rw [hceiling, if_pos hbounded, Option.map_some, toNat_max, hfloor]
    exact congrArg (fun m => some (max m _)) (Gate.toNat_full n t)
  · rw [if_neg hbounded]
    by_cases hsorted : isSorted kind n t = true
    · have hceiling : (bounds kind n t).ceiling? =
          some (max (sortFactor * n.word) (bounds kind n t).floor) := by
        unfold bounds
        dsimp only
        rw [if_neg hbounded, if_pos hsorted]
        rfl
      rw [hceiling, if_pos hsorted, Option.map_some, toNat_max, hfloor, toNat_sortedCeiling]
    · have hceiling : (bounds kind n t).ceiling? = none := by
        unfold bounds
        dsimp only
        rw [if_neg hbounded, if_neg hsorted]
        rfl
      rw [hceiling, if_neg hsorted]
      rfl

end Partition.Exact

/-! ## Everything together -/

/-- The gate of a kind is sized exactly, as is the pool of an edge that has such gates. The pool
clamps at most the product with the reuse count. -/
structure Gate.Exact.Agrees (kind : Kind) (n : Count) (t : Tuning) : Prop where
  exclusivePerChannel :
    (layout kind n t).exclusivePerChannel.toNat = Exact.exclusivePerChannel kind n t
  required : (layout kind n t).required.toNat = Exact.required kind n t
  floating : (layout kind n t).floating.toNat = Exact.floating kind n t
  target : (layout kind n t).target.toNat = Exact.target kind n t
  requiredFloating :
    ((layout kind n t).requiredFloating n).toNat = Exact.requiredFloating kind n t
  poolFloor : ((layout kind n t).floatingPool n).floor.toNat = Exact.requiredFloating kind n t
  poolCeiling :
    ((layout kind n t).floatingPool n).ceiling?.map UInt64.toNat = some (Exact.ceiling kind n t)
  poolExclusive : ∀ id reuse,
    (InputEdge.pool t ⟨id, kind, n, reuse⟩).exclusive.toNat = Exact.poolExclusive kind n t
  poolPeak : ∀ id reuse, ∃ peak : UInt64, peak.toNat = Exact.peak kind n t ∧
    (InputEdge.pool t ⟨id, kind, n, reuse⟩).peak? = some (Saturating.mul peak reuse.toUInt64)

theorem Gate.Exact.agrees (kind : Kind) (n : Count) (t : Tuning) : Gate.Exact.Agrees kind n t where
  exclusivePerChannel := toNat_exclusivePerChannel kind n t
  required := toNat_required kind n t
  floating := toNat_floating kind n t
  target := toNat_target kind n t
  requiredFloating := toNat_requiredFloating kind n t
  poolFloor := (toNat_floatingPool kind n t).1
  poolCeiling := (toNat_floatingPool kind n t).2
  poolExclusive id reuse := InputEdge.toNat_exclusive_pool_eq ⟨id, kind, n, reuse⟩
  poolPeak id reuse := InputEdge.exists_peak?_pool ⟨id, kind, n, reuse⟩

/-- **Sizing never overflows and never falls below zero**, for every kind, every count of at least
one and all tuning values, valid or not. In exact arithmetic every number on the way is below
`2 ^ 64`, and what is subtracted from the target and from the required buffers is never more than
they are. So the words are the exact sizes, of the gate, of its pool and of the pool of a result
partition. -/
theorem sizing_never_overflows (kind : Kind) (n : Count) (t : Tuning) :
    (∀ v ∈ Gate.Exact.steps kind n t, v < 2 ^ 64) ∧
    (∀ v ∈ Partition.Exact.steps kind n t, v < 2 ^ 64) ∧
    Gate.Exact.pinned kind n t ≤ Gate.Exact.target kind n t ∧
    Gate.Exact.pinned kind n t ≤ Gate.Exact.required kind n t ∧
    Gate.Exact.Agrees kind n t ∧
    (Partition.bounds kind n t).floor.toNat = Partition.Exact.floor kind n t ∧
    (Partition.bounds kind n t).ceiling?.map UInt64.toNat = Partition.Exact.ceiling? kind n t := by
  have hpinned := Gate.Exact.pinned_le_required kind n t
  refine ⟨fun _ => Gate.Exact.lt_of_mem_steps kind n t,
    fun _ => Partition.Exact.lt_of_mem_steps kind n t,
    hpinned.trans (Gate.Exact.required_le_target kind n t), hpinned, Gate.Exact.agrees kind n t,
    Partition.Exact.toNat_floor kind n t, Partition.Exact.map_toNat_ceiling? kind n t⟩

end BufferPlan
