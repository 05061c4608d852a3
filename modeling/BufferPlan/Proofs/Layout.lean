import BufferPlan.Gate

/-!
# The gate layout in natural numbers

The sizes of a gate are plain 64-bit sums, products and differences of 32-bit counts. None of them
wraps and no difference falls below zero, so each size is the same expression in `Nat`. The lemmas
here say so once for every size, and everything about a layout follows from them in `Nat`.

* `toNat_allExclusive`, `toNat_required`, `toNat_target`: the sizes that are computed first.
* `toNat_pinned`: the channels pin all exclusive buffers or none (`pinned`).
* `toNat_floating`, `toNat_requiredFloating`, `floatingPool_eq`: what is left floats, and the floating
  pool takes its ceiling as it is.
-/

namespace BufferPlan

/-! ## Words -/

theorem toNat_min (a b : UInt64) : (min a b).toNat = min a.toNat b.toNat := by
  rw [show min a b = if a ≤ b then a else b from rfl]
  split
  · rename_i h
    rw [UInt64.le_iff_toNat_le] at h
    omega
  · rename_i h
    rw [UInt64.le_iff_toNat_le] at h
    omega

theorem toNat_max (a b : UInt64) : (max a b).toNat = max a.toNat b.toNat := by
  rw [show max a b = if a ≤ b then b else a from rfl]
  split
  · rename_i h
    rw [UInt64.le_iff_toNat_le] at h
    omega
  · rename_i h
    rw [UInt64.le_iff_toNat_le] at h
    omega

/-- A sum that fits a word does not wrap. -/
theorem toNat_add_of_lt {a b : UInt64} (h : a.toNat + b.toNat < UInt64.size) :
    (a + b).toNat = a.toNat + b.toNat := by
  rw [UInt64.toNat_add]
  exact Nat.mod_eq_of_lt h

/-- A product of two 32-bit counts fits a word. -/
theorem toNat_mul_toUInt64 (a b : UInt32) :
    (a.toUInt64 * b.toUInt64).toNat = a.toNat * b.toNat := by
  rw [UInt64.toNat_mul, UInt32.toNat_toUInt64, UInt32.toNat_toUInt64]
  apply Nat.mod_eq_of_lt
  have ha := a.toNat_lt
  have hb := b.toNat_lt
  have hle : a.toNat * b.toNat ≤ 4294967295 * 4294967295 := Nat.mul_le_mul (by omega) (by omega)
  omega

namespace Gate

variable (kind : Kind) (n : Count) (t : Tuning)

/-! ## The sizes that are computed first -/

/-- The exclusive buffers of all channels together. -/
def allExclusive : Nat := n.val.toNat * t.buffersPerChannel.toNat

/-- The largest gate leaves room for a floating count and one buffer more. -/
theorem allExclusive_le : allExclusive n t ≤ 4294967295 * 4294967295 := by
  have hn := n.val.toNat_lt
  have hb := t.buffersPerChannel.toNat_lt
  unfold allExclusive
  exact Nat.mul_le_mul (by omega) (by omega)

theorem toNat_allExclusive :
    (n.word * (channelBuffers t.buffersPerChannel).toUInt64).toNat = allExclusive n t :=
  toNat_mul_toUInt64 n.val t.buffersPerChannel

theorem toNat_required :
    (layout kind n t).required.toNat = min (threshold kind t).toNat (allExclusive n t + 1) := by
  have hle := allExclusive_le n t
  have hall := toNat_allExclusive n t
  show (min (threshold kind t) (n.word * _ + 1)).toNat = _
  rw [toNat_min, toNat_add_of_lt, hall]
  · rfl
  · rw [hall]
    simp only [UInt64.toNat_one, UInt64.size]
    omega

/-- The size of a gate that gets all its floating buffers, before a cap. -/
theorem toNat_full :
    (n.word * (channelBuffers t.buffersPerChannel).toUInt64 + t.floatingPerGate.toUInt64).toNat =
      allExclusive n t + t.floatingPerGate.toNat := by
  have hle := allExclusive_le n t
  have hf := t.floatingPerGate.toNat_lt
  rw [toNat_add_of_lt, toNat_allExclusive, UInt32.toNat_toUInt64]
  rw [toNat_allExclusive, UInt32.toNat_toUInt64, UInt64.size]
  omega

theorem toNat_target :
    (layout kind n t).target.toNat =
      max (layout kind n t).required.toNat
        (match t.gateCap with
        | some cap => min (allExclusive n t + t.floatingPerGate.toNat) cap.toNat
        | none => allExclusive n t + t.floatingPerGate.toNat) := by
  have hfull := toNat_full n t
  unfold layout
  cases t.gateCap with
  | none => simp only [toNat_max, hfull]
  | some cap => simp only [toNat_max, toNat_min, hfull, UInt32.toNat_toUInt64]

theorem required_le_target :
    (layout kind n t).required.toNat ≤ (layout kind n t).target.toNat := by
  rw [toNat_target]
  exact Nat.le_max_left _ _

/-! ## What is pinned and what floats -/

/-- The buffers that are pinned to channels: all exclusive ones if that leaves a required buffer to
float, and none otherwise. -/
def pinned : Nat :=
  if allExclusive n t < (layout kind n t).required.toNat then allExclusive n t else 0

theorem pinned_le_required : pinned kind n t ≤ (layout kind n t).required.toNat := by
  unfold pinned
  split
  · omega
  · omega

theorem toNat_pinned :
    (n.word * (layout kind n t).exclusivePerChannel).toNat = pinned kind n t := by
  have hall := toNat_allExclusive n t
  have hle : (layout kind n t).required ≤
      n.word * (channelBuffers t.buffersPerChannel).toUInt64 ↔
      ¬ allExclusive n t < (layout kind n t).required.toNat := by
    rw [UInt64.le_iff_toNat_le, hall, Nat.not_lt]
  show (n.word * if (layout kind n t).required ≤
    n.word * (channelBuffers t.buffersPerChannel).toUInt64 then 0 else
      (channelBuffers t.buffersPerChannel).toUInt64).toNat = _
  unfold pinned
  split
  · rename_i h
    rw [if_neg (hle.mp h)]
    simp
  · rename_i h
    rw [if_pos (by rwa [hle, Decidable.not_not] at h), hall]

theorem toNat_floating :
    (layout kind n t).floating.toNat = (layout kind n t).target.toNat - pinned kind n t := by
  have hpin := toNat_pinned kind n t
  have hle := pinned_le_required kind n t
  have htarget := required_le_target kind n t
  show ((layout kind n t).target - n.word * (layout kind n t).exclusivePerChannel).toNat = _
  rw [UInt64.toNat_sub_of_le, hpin]
  rw [UInt64.le_iff_toNat_le, hpin]
  omega

theorem toNat_requiredFloating :
    ((layout kind n t).requiredFloating n).toNat =
      (layout kind n t).required.toNat - pinned kind n t := by
  rw [Layout.requiredFloating, Saturating.toNat_sub, toNat_pinned]

/-- The ceiling of the floating pool is never lifted to its floor. -/
theorem floatingPool_eq :
    (layout kind n t).floatingPool n =
      ⟨(layout kind n t).requiredFloating n, some (layout kind n t).floating⟩ := by
  have hf := toNat_floating kind n t
  have hr := toNat_requiredFloating kind n t
  have hle := required_le_target kind n t
  unfold Layout.floatingPool Bounds.between
  congr
  apply UInt64.toNat_inj.mp
  rw [toNat_max, hf, hr]
  omega

end Gate

end BufferPlan
