/-!
# Positive counts

A gate has at least one channel and a result partition at least one subpartition. `Count` is a
32-bit count that is not zero; `Count.of?` is the check that produces one.
-/

namespace BufferPlan

/-- A 32-bit count of at least one. -/
structure Count where
  val : UInt32
  pos : 0 < val
deriving DecidableEq, Repr

namespace Count

/-- The count `n`, unless `n` is zero. -/
def of? (n : UInt32) : Option Count := if h : 0 < n then some ⟨n, h⟩ else none

/-- The count as a 64-bit word, the width buffers are counted in. -/
def word (n : Count) : UInt64 := n.val.toUInt64

theorem of?_eq_some_iff {n : UInt32} {c : Count} : of? n = some c ↔ c.val = n := by
  unfold of?
  obtain ⟨v, hv⟩ := c
  split
  · simp only [Option.some.injEq, Count.mk.injEq]
    exact eq_comm
  · rename_i h
    simp only [reduceCtorEq, false_iff]
    rintro rfl
    exact h hv

theorem of?_eq_none_iff {n : UInt32} : of? n = none ↔ n = 0 := by
  unfold of?
  split
  · rename_i h
    simp only [reduceCtorEq, false_iff]
    rintro rfl
    exact absurd h (by decide)
  · rename_i h
    simp only [true_iff]
    exact UInt32.toNat_inj.mp (by simp only [UInt32.lt_iff_toNat_lt] at h; simp at h ⊢; omega)

theorem ne_zero (n : Count) : n.val ≠ 0 := fun h => absurd (h ▸ n.pos) (by decide)

theorem exists_of_ne_zero {n : UInt32} (h : n ≠ 0) : ∃ c : Count, c.val = n := by
  cases hc : of? n with
  | none => exact absurd (of?_eq_none_iff.mp hc) h
  | some c => exact ⟨c, of?_eq_some_iff.mp hc⟩

end Count

end BufferPlan
