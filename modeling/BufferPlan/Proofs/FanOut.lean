import BufferPlan.Proofs.Monotone

/-!
# What a result partition announces as its fan-out grows

A bounded partition announces the ceiling of its pool, and a larger fan-out never gets it less. A
blocking one announces the floor of its pool, and there is one fan-out at which that is sized anew:
below it every subpartition counts, and from it on the pool is sorted and its floor is a tuning
value. What is announced falls there if the tuning value is below the fan-out, and nowhere else.

* `Partition.Exact.floor_of_isBlocking`: the two modes of a blocking partition.
* `Partition.bounds_mono`: within one mode neither the floor nor the ceiling falls.
* `Partition.grows_iff_of_isBlocking`: when a blocking partition never announces less.
* **`Partition.announced_along_fan_out`**: all of it, for all tuning values.
-/

namespace BufferPlan.Partition

variable {kind : Kind} {n n' : Count} {t : Tuning} {m m' : UInt64}

/-- A partition of the kind and the fan-out announces the count, whatever its edge. -/
def Announces (t : Tuning) (kind : Kind) (n : Count) (m : UInt64) : Prop :=
  ∀ id, (OutputEdge.announce t ⟨id, kind, n⟩).outcome = .ok m

/-- A partition of the kind never announces less for a larger fan-out. -/
def Grows (t : Tuning) (kind : Kind) : Prop :=
  ∀ n n' m m', n.val ≤ n'.val → Announces t kind n m → Announces t kind n' m' → m ≤ m'

theorem announces_iff : Announces t kind n m ↔ announced? kind (bounds kind n t) = some m := by
  unfold Announces
  simp only [OutputEdge.announce_eq_ok_iff]
  exact ⟨fun h => h ⟨0⟩, fun h _ => h⟩

/-! ## One mode -/

namespace Exact

theorem ceiling?_mono (hn : n.val ≤ n'.val) (hmode : isSorted kind n t = isSorted kind n' t) :
    Option.Rel (· ≤ ·) (ceiling? kind n t) (ceiling? kind n' t) := by
  have hfloor := floor_mono t.below_refl hn hmode
  have hbounded := boundedCeiling_mono t.below_refl hn
  have hsorted : sortedCeiling n ≤ sortedCeiling n' :=
    Nat.mul_le_mul_left 4 (UInt32.le_iff_toNat_le.mp hn)
  unfold ceiling?
  rw [hmode]
  split
  · exact .some (by omega)
  · split
    · exact .some (by omega)
    · exact .none

/-- With buffers for each subpartition, every further one shows in the ceiling. -/
theorem boundedCeiling_lt_boundedCeiling (hbuffers : 1 ≤ t.buffersPerChannel)
    (hn : n.val < n'.val) : boundedCeiling n t < boundedCeiling n' t := by
  rw [UInt32.le_iff_toNat_le] at hbuffers
  have hmul : subpartitionBuffers n t < subpartitionBuffers n' t :=
    Nat.mul_lt_mul_of_pos_right (UInt32.lt_iff_toNat_lt.mp hn) hbuffers
  unfold boundedCeiling
  omega

/-- A blocking partition has a floor above its fan-out until its pool is sorted. -/
theorem floor_of_isBlocking (h : kind.isBlocking = true) (n : Count) (t : Tuning) :
    floor kind n t = if n.val < t.sortFanOut then n.val.toNat + 1 else t.sortFloor.toNat := by
  unfold floor isSorted
  rw [h, Bool.true_and]
  by_cases hn : n.val < t.sortFanOut
  · simp [hn, UInt32.not_le.mpr hn]
  · simp [hn, UInt32.not_lt.mp hn]

end Exact

/-- **Within one mode the bounds do not fall**, whatever the kind: the floor does not, and there is
a ceiling for both fan-outs or for neither. -/
theorem bounds_mono (hn : n.val ≤ n'.val) (hmode : isSorted kind n t = isSorted kind n' t) :
    (bounds kind n t).floor ≤ (bounds kind n' t).floor ∧
      Option.Rel (· ≤ ·) (bounds kind n t).ceiling? (bounds kind n' t).ceiling? := by
  constructor
  · rw [UInt64.le_iff_toNat_le, Exact.toNat_floor, Exact.toNat_floor]
    exact Exact.floor_mono t.below_refl hn hmode
  · have hceiling := Exact.ceiling?_mono hn hmode
    rw [← Exact.map_toNat_ceiling?, ← Exact.map_toNat_ceiling?] at hceiling
    generalize (bounds kind n t).ceiling? = c?, (bounds kind n' t).ceiling? = c'? at hceiling ⊢
    cases c? with
    | none =>
      cases c'? with
      | none => exact .none
      | some c' => cases hceiling
    | some c =>
      cases c'? with
      | none => cases hceiling
      | some c' =>
        cases hceiling with
        | some hle => exact .some (UInt64.le_iff_toNat_le.mpr hle)

/-! ## Bounded partitions -/

/-- **A bounded partition announces no less for a larger fan-out**, and more if every subpartition
has buffers of its own. -/
theorem bounded_announces (t : Tuning) (hn : n.val ≤ n'.val) :
    ∃ m m', Announces t .pipelinedBounded n m ∧ Announces t .pipelinedBounded n' m' ∧ m ≤ m' ∧
      (1 ≤ t.buffersPerChannel → n.val < n'.val → m < m') := by
  have hbounded : Kind.isBounded .pipelinedBounded = true := rfl
  obtain ⟨m, hm, hvalue⟩ := exists_announced?_of_isBounded hbounded n t
  obtain ⟨m', hm', hvalue'⟩ := exists_announced?_of_isBounded hbounded n' t
  have hceiling := Exact.boundedCeiling_mono t.below_refl hn
  have hfloor (n : Count) : Exact.floor .pipelinedBounded n t = n.val.toNat + 1 := rfl
  rw [hfloor] at hvalue hvalue'
  refine ⟨m, m', announces_iff.mpr hm, announces_iff.mpr hm', ?_, fun hbuffers hlt => ?_⟩
  · rw [UInt32.le_iff_toNat_le] at hn
    rw [UInt64.le_iff_toNat_le]
    omega
  · have hless := Exact.boundedCeiling_lt_boundedCeiling hbuffers hlt
    rw [UInt32.lt_iff_toNat_lt] at hlt
    rw [UInt64.lt_iff_toNat_lt]
    omega

/-! ## Blocking partitions -/

theorem exists_count {k : Nat} (hpos : 0 < k) (hlt : k < 2 ^ 32) :
    ∃ n : Count, n.val.toNat = k := by
  have hk : (UInt32.ofNat k).toNat = k := UInt32.toNat_ofNat_of_lt' hlt
  exact ⟨⟨.ofNat k, by rwa [UInt32.lt_iff_toNat_lt, hk]⟩, hk⟩

section

variable (h : kind.isBlocking = true)
include h

theorem announces_iff_of_isBlocking :
    Announces t kind n m ↔ m.toNat = Exact.floor kind n t := by
  rw [announces_iff, announced?_of_isBlocking h, ← Exact.toNat_floor, UInt64.toNat_inj]
  simp [eq_comm]

/-- A blocking partition announces one buffer more than its fan-out until its pool is sorted, and
from then on the floor of sorted pools. -/
theorem blocking_announces (n : Count) (t : Tuning) :
    ∃ m, Announces t kind n m ∧
      m.toNat = if n.val < t.sortFanOut then n.val.toNat + 1 else t.sortFloor.toNat := by
  refine ⟨(bounds kind n t).floor, ?_, ?_⟩
  · rw [announces_iff, announced?_of_isBlocking h]
  · rw [Exact.toNat_floor, Exact.floor_of_isBlocking h]

/-- **A blocking partition never announces less** iff its pool is sorted from the first subpartition
on, or the floor of sorted pools is not below the fan-out from which there are any. -/
theorem grows_iff_of_isBlocking :
    Grows t kind ↔ t.sortFanOut ≤ 1 ∨ t.sortFanOut ≤ t.sortFloor := by
  rw [UInt32.le_iff_toNat_le, UInt32.le_iff_toNat_le, UInt32.toNat_one]
  constructor
  · intro hgrows
    by_contra hneither
    have hlt := t.sortFanOut.toNat_lt
    -- the fan-outs on either side of the switch
    obtain ⟨n, hn⟩ : ∃ n : Count, n.val.toNat = t.sortFanOut.toNat - 1 :=
      exists_count (by omega) (by omega)
    obtain ⟨n', hn'⟩ : ∃ n : Count, n.val.toNat = t.sortFanOut.toNat :=
      exists_count (by omega) hlt
    obtain ⟨m, hm, hvalue⟩ := blocking_announces h n t
    obtain ⟨m', hm', hvalue'⟩ := blocking_announces h n' t
    have hle := hgrows n n' m m' (UInt32.le_iff_toNat_le.mpr (by omega)) hm hm'
    rw [if_pos (UInt32.lt_iff_toNat_lt.mpr (by omega))] at hvalue
    rw [if_neg (by rw [UInt32.lt_iff_toNat_lt]; omega)] at hvalue'
    rw [UInt64.le_iff_toNat_le] at hle
    omega
  · intro hor n n' m m' hn hm hm'
    rw [announces_iff_of_isBlocking h, Exact.floor_of_isBlocking h] at hm hm'
    have hpos := UInt32.lt_iff_toNat_lt.mp n.pos
    simp only [UInt32.lt_iff_toNat_lt, UInt32.le_iff_toNat_le, UInt32.toNat_zero] at hn hm hm' hpos
    rw [UInt64.le_iff_toNat_le, hm, hm']
    by_cases hbelow : n.val.toNat < t.sortFanOut.toNat
    · by_cases hbelow' : n'.val.toNat < t.sortFanOut.toNat
      · rw [if_pos hbelow, if_pos hbelow']
        omega
      · -- the switch lies between the two, so it is not at the first subpartition
        rw [if_pos hbelow, if_neg hbelow']
        omega
    · rw [if_neg hbelow, if_neg (by omega)]

end

/-- **What a result partition announces as its fan-out grows.** A bounded one never announces less,
and more if every subpartition has buffers of its own. A blocking one announces one buffer more than
its fan-out below the fan-out of sorted pools, and their floor from there on; so it never announces
less iff there is nothing below that fan-out or the floor is not smaller. As long as a pool is
sorted for both fan-outs or for neither, its bounds do not fall, for any kind. -/
theorem announced_along_fan_out (t : Tuning) :
    (∀ n n' : Count, n.val ≤ n'.val → ∃ m m', Announces t .pipelinedBounded n m ∧
      Announces t .pipelinedBounded n' m' ∧ m ≤ m' ∧
      (1 ≤ t.buffersPerChannel → n.val < n'.val → m < m')) ∧
    (∀ kind : Kind, kind.isBlocking = true → ∀ n, ∃ m, Announces t kind n m ∧
      m.toNat = if n.val < t.sortFanOut then n.val.toNat + 1 else t.sortFloor.toNat) ∧
    (∀ kind : Kind, kind.isBlocking = true →
      (Grows t kind ↔ t.sortFanOut ≤ 1 ∨ t.sortFanOut ≤ t.sortFloor)) ∧
    ∀ kind (n n' : Count), n.val ≤ n'.val → isSorted kind n t = isSorted kind n' t →
      (bounds kind n t).floor ≤ (bounds kind n' t).floor ∧
        Option.Rel (· ≤ ·) (bounds kind n t).ceiling? (bounds kind n' t).ceiling? :=
  ⟨fun _ _ => bounded_announces t, fun _ h n => blocking_announces h n t,
    fun _ => grows_iff_of_isBlocking, fun _ _ _ => bounds_mono⟩

/-- Pools that are sorted from eight subpartitions on, with a floor of five. -/
example :
    (announced? .blocking (bounds .blocking ⟨7, by decide⟩ { sortFanOut := 8, sortFloor := 5 }),
      announced? .blocking (bounds .blocking ⟨8, by decide⟩ { sortFanOut := 8, sortFloor := 5 })) =
        (some 8, some 5) := by
  decide

end BufferPlan.Partition
