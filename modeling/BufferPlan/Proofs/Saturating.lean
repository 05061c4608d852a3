import BufferPlan.Saturating
import Mathlib

/-!
# A saturating sum clamps once

Every saturating operation clamps its own result, so a total goes through many clamps: one for
each product, one for each addition and one for the last sum of both sides. Clamping is monotone and
never lets a value fall, so none of the early clamps shows: the result is the exact sum in `Nat`,
clamped once.

* `toNat_foldl_add`, `toNat_sum`: the value of a running saturating sum.
* `min_sum_map_min`: clamping every summand before the sum is clamped changes nothing.
* `sum_append`: the sum of two parts is the saturating sum of their sums.
* `sum_mono`: larger summands give a larger sum.
-/

namespace BufferPlan.Saturating

theorem top_eq : top = 2 ^ 64 - 1 := rfl

/-- Clamping both summands does not change the clamped sum. -/
theorem min_min_add_min (a b : Nat) : min (min a top + min b top) top = min (a + b) top := by
  omega

/-! ## Running sums -/

/-- **A running saturating sum is the exact sum, clamped once.** -/
theorem toNat_foldl_add (l : List UInt64) (a : UInt64) :
    (l.foldl add a).toNat = min (a.toNat + (l.map UInt64.toNat).sum) top := by
  induction l generalizing a with
  | nil =>
    have := toNat_le_top a
    simp only [List.foldl_nil, List.map_nil, List.sum_nil]
    omega
  | cons x l ih =>
    rw [List.foldl_cons, ih, toNat_add, List.map_cons, List.sum_cons]
    omega

theorem toNat_sum (l : List UInt64) : (sum l).toNat = min (l.map UInt64.toNat).sum top := by
  rw [sum, toNat_foldl_add, UInt64.toNat_zero, Nat.zero_add]

/-- The sum of two parts is the saturating sum of their sums. -/
theorem sum_append (l m : List UInt64) : sum (l ++ m) = add (sum l) (sum m) := by
  apply UInt64.toNat_inj.mp
  rw [toNat_add, toNat_sum, toNat_sum, toNat_sum, List.map_append, List.sum_append, min_min_add_min]

/-- **Clamping each summand is absorbed by the clamp of the sum.** -/
theorem min_sum_map_min (l : List Nat) : min (l.map (min · top)).sum top = min l.sum top := by
  induction l with
  | nil => rfl
  | cons x l ih =>
    rw [List.map_cons, List.sum_cons, List.sum_cons]
    omega

/-- Larger summands give a larger sum. -/
theorem sum_mono {α : Type} {l : List α} {f g : α → UInt64} (h : ∀ a ∈ l, f a ≤ g a) :
    sum (l.map f) ≤ sum (l.map g) := by
  have hle : (l.map fun a => (f a).toNat).sum ≤ (l.map fun a => (g a).toNat).sum :=
    List.sum_le_sum fun a ha => UInt64.le_iff_toNat_le.mp (h a ha)
  rw [UInt64.le_iff_toNat_le, toNat_sum, toNat_sum, List.map_map, List.map_map]
  simp only [Function.comp_def]
  omega

/-! ## The order of the operations -/

theorem add_mono {a b c d : UInt64} (hac : a ≤ c) (hbd : b ≤ d) : add a b ≤ add c d := by
  rw [UInt64.le_iff_toNat_le] at *
  rw [toNat_add, toNat_add]
  omega

theorem mul_mono {a b c d : UInt64} (hac : a ≤ c) (hbd : b ≤ d) : mul a b ≤ mul c d := by
  rw [UInt64.le_iff_toNat_le] at *
  have := Nat.mul_le_mul hac hbd
  rw [toNat_mul, toNat_mul]
  omega

end BufferPlan.Saturating
