import BufferPlan.Proofs.Exact

/-!
# The two regimes of a gate

The layout of a gate is computed by minima, maxima and a comparison, but there are only two kinds of
layouts. The threshold of the gate tells them apart:

* if it is above all exclusive buffers, channels **pin** them (`Gate.Pins`). One buffer more is
  required, and the floating pool is the one that the floating count alone gives, within what a cap
  leaves beside the exclusive buffers;
* otherwise every buffer **floats** (`Gate.Floats`). The threshold is required, and it is the floor
  of the floating pool.

A threshold that is met by the exclusive buffers exactly leaves no buffer to float beside them, so
it belongs to the second regime. With a cap both regimes have the same target.

* `Gate.Exact.target_of_cap`, `Gate.Exact.target_of_lt`, `Gate.Exact.target_of_le`: the target.
* `Gate.pins_of_lt`, `Gate.floats_of_le`: the two regimes.
* **`Gate.layout_closed_form`**: all of it, for every kind, count and tuning value.
-/

namespace BufferPlan

/-- The bounds go from `lo` to `hi`. -/
structure Bounds.Span (b : Bounds) (lo hi : Nat) : Prop where
  floor : b.floor.toNat = lo
  ceiling : b.ceiling?.map UInt64.toNat = some hi

theorem Bounds.span_between (lo hi : UInt64) :
    (between lo hi).Span lo.toNat (max hi.toNat lo.toNat) where
  floor := rfl
  ceiling := congrArg some (toNat_max hi lo)

/-- Bounds with the same span are equal. -/
theorem Bounds.Span.eq {b b' : Bounds} {lo hi : Nat} (h : b.Span lo hi) (h' : b'.Span lo hi) :
    b = b' := by
  obtain ⟨floor, ceiling?⟩ := b
  obtain ⟨floor', ceiling?'⟩ := b'
  have hfloor : floor = floor' := UInt64.toNat_inj.mp (h.floor.trans h'.floor.symm)
  have hceiling : ceiling? = ceiling?' :=
    Option.map_injective (fun _ _ => UInt64.toNat_inj.mp) (h.ceiling.trans h'.ceiling.symm)
  rw [hfloor, hceiling]

namespace Gate

variable {kind : Kind} {n : Count} {t : Tuning}

/-! ## The sizes in each regime -/

namespace Exact

/-- The floating buffers that a gate has beside its exclusive ones if there is no cap. -/
def spare (t : Tuning) : Nat := max 1 t.floatingPerGate.toNat

theorem threshold_of_cap {cap : UInt32} (hcap : t.gateCap = some cap) :
    threshold kind t = cap.toNat := by
  rw [threshold, hcap]

/-- **A cap limits the exclusive buffers and the spare ones together**, in both regimes. -/
theorem target_of_cap {cap : UInt32} (hcap : t.gateCap = some cap) :
    target kind n t = min cap.toNat (allExclusive n t + spare t) := by
  rw [target, required, capped, hcap, threshold_of_cap hcap, full, spare]
  dsimp only
  omega

section

variable (h : allExclusive n t < threshold kind t)
include h

theorem required_of_lt : required kind n t = allExclusive n t + 1 := by
  rw [required]
  omega

theorem exclusivePerChannel_of_lt :
    exclusivePerChannel kind n t = t.buffersPerChannel.toNat := by
  rw [exclusivePerChannel, required_of_lt h, if_neg (by omega)]

theorem pinned_of_lt : pinned kind n t = allExclusive n t := by
  rw [pinned, exclusivePerChannel_of_lt h, allExclusive]

theorem target_of_lt (hcap : t.gateCap = none) :
    target kind n t = allExclusive n t + spare t := by
  rw [target, required_of_lt h, capped, hcap, full, spare]
  dsimp only
  omega

end

section

variable (h : threshold kind t ≤ allExclusive n t)
include h

theorem required_of_le : required kind n t = threshold kind t := by
  rw [required]
  omega

theorem exclusivePerChannel_of_le : exclusivePerChannel kind n t = 0 := by
  rw [exclusivePerChannel, required_of_le h, if_pos h]

theorem pinned_of_le : pinned kind n t = 0 := by
  rw [pinned, exclusivePerChannel_of_le h, Nat.mul_zero]

/-- What is required is no more than the exclusive buffers, so it does not show in the target. -/
theorem target_of_le (hcap : t.gateCap = none) :
    target kind n t = allExclusive n t + t.floatingPerGate.toNat := by
  rw [target, required_of_le h, capped, hcap, full]
  dsimp only
  omega

end

end Exact

/-- The floating pool spans from the required buffers that float to all that do. -/
theorem span_floatingPool (kind : Kind) (n : Count) (t : Tuning) :
    ((layout kind n t).floatingPool n).Span (Exact.requiredFloating kind n t)
      (Exact.floating kind n t) := by
  obtain ⟨hfloor, hceiling⟩ := Exact.toNat_floatingPool kind n t
  rw [Exact.ceiling_eq_floating] at hceiling
  exact ⟨hfloor, hceiling⟩

/-- A pool that is sized from the floating count alone keeps one buffer. -/
theorem span_floatingBounds (t : Tuning) :
    (floatingBounds t.floatingPerGate).Span 1 (Exact.spare t) := by
  have h := Bounds.span_between 1 t.floatingPerGate.toUInt64
  rwa [UInt64.toNat_one, UInt32.toNat_toUInt64, Nat.max_comm] at h

/-! ## The two regimes -/

/-- The channels of a gate pin all its exclusive buffers. -/
structure Pins (kind : Kind) (n : Count) (t : Tuning) : Prop where
  exclusivePerChannel : (layout kind n t).exclusivePerChannel = t.buffersPerChannel.toUInt64
  required : (layout kind n t).required.toNat = allExclusive n t + 1
  requiredFloating : (layout kind n t).requiredFloating n = 1
  /-- Without a cap the pool is sized from the floating count alone. -/
  pool : t.gateCap = none → (layout kind n t).floatingPool n = floatingBounds t.floatingPerGate
  /-- A cap holds the ceiling of that pool at what it leaves beside the exclusive buffers. -/
  poolOfCap : ∀ cap, t.gateCap = some cap →
    ((layout kind n t).floatingPool n).Span 1
      (min (max 1 t.floatingPerGate.toNat) (cap.toNat - allExclusive n t))

/-- Every buffer of a gate floats. -/
structure Floats (kind : Kind) (n : Count) (t : Tuning) : Prop where
  exclusivePerChannel : (layout kind n t).exclusivePerChannel = 0
  floating : (layout kind n t).floating = (layout kind n t).target
  required : (layout kind n t).required = threshold kind t
  pool : t.gateCap = none → ((layout kind n t).floatingPool n).Span (threshold kind t).toNat
    (allExclusive n t + t.floatingPerGate.toNat)
  poolOfCap : ∀ cap, t.gateCap = some cap →
    ((layout kind n t).floatingPool n).Span (threshold kind t).toNat cap.toNat

theorem pins_of_lt (h : allExclusive n t < (threshold kind t).toNat) : Pins kind n t := by
  rw [Exact.toNat_threshold] at h
  have hrequired := Exact.required_of_lt h
  have hpinned := Exact.pinned_of_lt h
  have hone : Exact.requiredFloating kind n t = 1 := by
    rw [Exact.requiredFloating, hrequired, hpinned]
    omega
  have hspan := span_floatingPool kind n t
  rw [hone, Exact.floating, hpinned] at hspan
  refine ⟨?_, ?_, ?_, fun hcap => ?_, fun cap hcap => ?_⟩
  · apply UInt64.toNat_inj.mp
    rw [Exact.toNat_exclusivePerChannel, Exact.exclusivePerChannel_of_lt h]
    exact (UInt32.toNat_toUInt64 _).symm
  · rw [Exact.toNat_required, hrequired]
  · apply UInt64.toNat_inj.mp
    rw [Exact.toNat_requiredFloating, hone, UInt64.toNat_one]
  · rw [Exact.target_of_lt h hcap, Nat.add_sub_cancel_left] at hspan
    exact hspan.eq (span_floatingBounds t)
  · have hceiling : min cap.toNat (allExclusive n t + Exact.spare t) - allExclusive n t =
        min (max 1 t.floatingPerGate.toNat) (cap.toNat - allExclusive n t) := by
      rw [Exact.spare]
      omega
    rwa [Exact.target_of_cap hcap, hceiling] at hspan

theorem floats_of_le (h : (threshold kind t).toNat ≤ allExclusive n t) : Floats kind n t := by
  have hthreshold := Exact.toNat_threshold kind t
  rw [hthreshold] at h
  have hrequired := Exact.required_of_le h
  have hpinned := Exact.pinned_of_le h
  have hspan := span_floatingPool kind n t
  rw [Exact.requiredFloating, Exact.floating, hpinned, hrequired, Nat.sub_zero, Nat.sub_zero,
    ← hthreshold] at hspan
  refine ⟨?_, ?_, ?_, fun hcap => ?_, fun cap hcap => ?_⟩
  · apply UInt64.toNat_inj.mp
    rw [Exact.toNat_exclusivePerChannel, Exact.exclusivePerChannel_of_le h, UInt64.toNat_zero]
  · apply UInt64.toNat_inj.mp
    rw [Exact.toNat_floating, Exact.toNat_target, Exact.floating, hpinned, Nat.sub_zero]
  · apply UInt64.toNat_inj.mp
    rw [Exact.toNat_required, hrequired, hthreshold]
  · rwa [Exact.target_of_le h hcap] at hspan
  · have hceiling : min cap.toNat (allExclusive n t + Exact.spare t) = cap.toNat := by
      rw [Exact.threshold_of_cap hcap] at h
      omega
    rwa [Exact.target_of_cap hcap, hceiling] at hspan

/-- **No required buffer floats iff the cap is zero.** -/
theorem requiredFloating_eq_zero_iff (kind : Kind) (n : Count) (t : Tuning) :
    (layout kind n t).requiredFloating n = 0 ↔ t.gateCap = some 0 := by
  rw [← UInt64.toNat_inj, Exact.toNat_requiredFloating, UInt64.toNat_zero, Exact.requiredFloating]
  rcases Nat.lt_or_ge (allExclusive n t) (Exact.threshold kind t) with h | h
  · rw [Exact.required_of_lt h, Exact.pinned_of_lt h]
    constructor
    · omega
    · intro hcap
      rw [Exact.threshold_of_cap hcap] at h
      exact absurd h (Nat.not_lt_zero _)
  · rw [Exact.required_of_le h, Exact.pinned_of_le h, Nat.sub_zero, Exact.threshold]
    cases t.gateCap with
    | none =>
      simp only [reduceCtorEq, iff_false]
      split
      · decide
      · decide
    | some cap =>
      rw [Option.some.injEq, ← UInt32.toNat_inj]
      rfl

/-- **The layout in closed form.** The threshold is the cap if there is one, and otherwise 1000 for
a blocking gate and the largest word for a live one. A gate whose threshold is above all exclusive
buffers pins them, and in any other gate every buffer floats. In both regimes the pinned and the
floating buffers make up the target, which is at least what is required; with a cap it is all
exclusive buffers and the spare ones, within the cap. A required buffer floats unless the cap is
zero. -/
theorem layout_closed_form (kind : Kind) (n : Count) (t : Tuning) :
    (threshold kind t).toNat =
      t.gateCap.elim (if kind.isBlocking = true then 1000 else 2 ^ 64 - 1) UInt32.toNat ∧
    (floatingBounds t.floatingPerGate).Span 1 (max 1 t.floatingPerGate.toNat) ∧
    (allExclusive n t < (threshold kind t).toNat → Pins kind n t) ∧
    ((threshold kind t).toNat ≤ allExclusive n t → Floats kind n t) ∧
    n.val.toNat * (layout kind n t).exclusivePerChannel.toNat + (layout kind n t).floating.toNat =
      (layout kind n t).target.toNat ∧
    (layout kind n t).required ≤ (layout kind n t).target ∧
    (∀ cap, t.gateCap = some cap → (layout kind n t).target.toNat =
      min cap.toNat (allExclusive n t + max 1 t.floatingPerGate.toNat)) ∧
    ((layout kind n t).requiredFloating n = 0 ↔ t.gateCap = some 0) := by
  refine ⟨?_, span_floatingBounds t, pins_of_lt, floats_of_le, ?_,
    UInt64.le_iff_toNat_le.mpr (required_le_target kind n t), fun cap hcap => ?_,
    requiredFloating_eq_zero_iff kind n t⟩
  · rw [Exact.toNat_threshold, Exact.threshold]
    cases t.gateCap with
    | some cap => rfl
    | none => cases kind <;> rfl
  · have hheld := Exact.held_eq_target kind n t
    rw [Exact.held, Exact.poolExclusive_eq_pinned, Exact.ceiling_eq_floating] at hheld
    rw [Exact.toNat_exclusivePerChannel, Exact.toNat_floating, Exact.toNat_target]
    exact hheld
  · rw [Exact.toNat_target]
    exact Exact.target_of_cap hcap

/-- Ten exclusive buffers under a cap of ten: all of them float. -/
example : layout .pipelinedBounded ⟨2, by decide⟩ { buffersPerChannel := 5, gateCap := some 10 } =
    ⟨0, 10, 10, 10⟩ := by
  decide

end Gate

end BufferPlan
