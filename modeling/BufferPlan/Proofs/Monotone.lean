import BufferPlan.Proofs.Exact

/-!
# Larger counts and tuning values do not make a size smaller

A gate can pass from a layout where its channels pin their buffers to one where every buffer
floats. What is pinned and what floats then jump, one down and the other up, but their sum, the
target, never falls: it is made of minima and maxima of what grows. The bounds of a result partition
grow as well, as long as its pool is not sorted in one case and not in the other.

* `Tuning.Below`: tuning values under which no size is larger.
* `Gate.target_mono`: the target of a gate does not fall.
* `Partition.announced?_mono`: nor does what a result partition announces.
-/

namespace BufferPlan

/-- No tuning value is larger, a cap is set in both or in neither, and sorted pools begin at the
same fan-out. -/
structure Tuning.Below (t t' : Tuning) : Prop where
  buffersPerChannel : t.buffersPerChannel ≤ t'.buffersPerChannel
  floatingPerGate : t.floatingPerGate ≤ t'.floatingPerGate
  gateCap : Option.Rel (· ≤ ·) t.gateCap t'.gateCap
  sortFanOut : t.sortFanOut = t'.sortFanOut
  sortFloor : t.sortFloor ≤ t'.sortFloor

theorem Tuning.below_refl (t : Tuning) : t.Below t where
  buffersPerChannel := UInt32.le_refl _
  floatingPerGate := UInt32.le_refl _
  gateCap := by
    cases t.gateCap with
    | none => exact .none
    | some cap => exact .some (UInt32.le_refl cap)
  sortFanOut := rfl
  sortFloor := UInt32.le_refl _

variable {kind : Kind} {n n' : Count} {t t' : Tuning}

/-! ## Gates -/

namespace Gate

section

variable (ht : t.Below t') (hn : n.val ≤ n'.val)
include ht hn

theorem allExclusive_mono : allExclusive n t ≤ allExclusive n' t' :=
  Nat.mul_le_mul (UInt32.le_iff_toNat_le.mp hn) (UInt32.le_iff_toNat_le.mp ht.buffersPerChannel)

theorem Exact.full_mono : Exact.full n t ≤ Exact.full n' t' :=
  Nat.add_le_add (allExclusive_mono ht hn) (UInt32.le_iff_toNat_le.mp ht.floatingPerGate)

omit hn in
theorem Exact.threshold_mono : Exact.threshold kind t ≤ Exact.threshold kind t' := by
  have hcap := ht.gateCap
  unfold Exact.threshold
  generalize t.gateCap = cap, t'.gateCap = cap' at hcap ⊢
  cases hcap with
  | none => exact Nat.le_refl _
  | some hcap => exact UInt32.le_iff_toNat_le.mp hcap

theorem Exact.required_mono : Exact.required kind n t ≤ Exact.required kind n' t' := by
  have hthreshold : Exact.threshold kind t ≤ Exact.threshold kind t' := Exact.threshold_mono ht
  have hall := allExclusive_mono ht hn
  unfold Exact.required
  omega

theorem Exact.capped_mono : Exact.capped n t ≤ Exact.capped n' t' := by
  have hfull := Exact.full_mono ht hn
  have hcap := ht.gateCap
  unfold Exact.capped
  generalize t.gateCap = cap, t'.gateCap = cap' at hcap ⊢
  cases hcap with
  | none => exact hfull
  | some hcap =>
    rw [UInt32.le_iff_toNat_le] at hcap
    simp only
    omega

/-- **The target of a gate does not fall**, whichever layouts the gate passes between. -/
theorem target_mono : (layout kind n t).target ≤ (layout kind n' t').target := by
  have hrequired : Exact.required kind n t ≤ Exact.required kind n' t' := Exact.required_mono ht hn
  have hcapped := Exact.capped_mono ht hn
  rw [UInt64.le_iff_toNat_le, Exact.toNat_target, Exact.toNat_target, Exact.target, Exact.target]
  omega

end

end Gate

/-! ## Result partitions -/

namespace Partition

section

variable (ht : t.Below t') (hn : n.val ≤ n'.val)
include ht hn

theorem Exact.floor_mono (hsorted : isSorted kind n t = isSorted kind n' t') :
    Exact.floor kind n t ≤ Exact.floor kind n' t' := by
  have hfloor := UInt32.le_iff_toNat_le.mp ht.sortFloor
  rw [UInt32.le_iff_toNat_le] at hn
  unfold Exact.floor
  rw [hsorted]
  split
  · exact hfloor
  · omega

theorem Exact.boundedCeiling_mono : Exact.boundedCeiling n t ≤ Exact.boundedCeiling n' t' :=
  Gate.Exact.full_mono ht hn

end

/-- A blocking partition announces its floor. -/
theorem announced?_of_isBlocking (h : kind.isBlocking = true) (b : Bounds) :
    announced? kind b = some b.floor := by
  rw [announced?, Kind.isLive_eq_not_isBlocking, h]
  rfl

/-- A bounded partition announces its ceiling. -/
theorem exists_announced?_of_isBounded (h : kind.isBounded = true) (n : Count) (t : Tuning) :
    ∃ m, announced? kind (bounds kind n t) = some m ∧
      m.toNat = max (Exact.boundedCeiling n t) (Exact.floor kind n t) := by
  obtain rfl : kind = .pipelinedBounded := by
    cases kind with
    | pipelinedBounded => rfl
    | _ => cases h
  have hceiling := Exact.map_toNat_ceiling? .pipelinedBounded n t
  obtain ⟨m, hm, hvalue⟩ := Option.map_eq_some_iff.mp hceiling
  exact ⟨m, hm, hvalue⟩

/-- **What a result partition announces does not fall.** The fan-out of a bounded one may grow; that
of a blocking one stays, since its pool could become a sorted one, which is sized anew. -/
theorem announced?_mono (ht : t.Below t') (hbounded : kind.isBounded = true → n.val ≤ n'.val)
    (hblocking : kind.isBlocking = true → n.val = n'.val) {m : UInt64}
    (h : announced? kind (bounds kind n t) = some m) :
    ∃ m', announced? kind (bounds kind n' t') = some m' ∧ m ≤ m' := by
  have hkind : kind.isBounded = true ∨ kind.isBlocking = true := by
    cases kind with
    | pipelined | pipelinedApproximate => rw [announced?_eq_none_iff.mpr (by decide)] at h; cases h
    | pipelinedBounded => exact Or.inl rfl
    | blocking | blockingPersistent => exact Or.inr rfl
  rcases hkind with hk | hk
  · have hn := hbounded hk
    obtain ⟨m₁, hm₁, hvalue⟩ := exists_announced?_of_isBounded hk n t
    obtain ⟨m', hm', hvalue'⟩ := exists_announced?_of_isBounded hk n' t'
    obtain rfl : m₁ = m := Option.some.inj (hm₁.symm.trans h)
    refine ⟨m', hm', ?_⟩
    have hsorted : isSorted kind n t = isSorted kind n' t' := by
      cases kind with
      | pipelinedBounded => rfl
      | _ => cases hk
    have hceiling := Exact.boundedCeiling_mono ht hn
    have hfloor := Exact.floor_mono ht hn hsorted
    rw [UInt64.le_iff_toNat_le, hvalue, hvalue']
    omega
  · have hn := hblocking hk
    rw [announced?_of_isBlocking hk] at h ⊢
    refine ⟨_, rfl, ?_⟩
    have hsorted : isSorted kind n t = isSorted kind n' t' := by
      rw [isSorted, isSorted, hn, ht.sortFanOut]
    have hfloor := Exact.floor_mono ht (UInt32.le_of_eq hn) hsorted
    rw [← Option.some.inj h, UInt64.le_iff_toNat_le, Exact.toNat_floor, Exact.toNat_floor]
    exact hfloor

end Partition

end BufferPlan
