/-!
# Saturating arithmetic on 64-bit buffer counts

A buffer total that does not fit a word is held at the largest word instead of wrapping, so an
oversized task is announced as "everything" and never as a small number. Each operation is the
exact operation on naturals, clamped once.

* `toNat_clamp`, `toNat_add`, `toNat_mul`, `toNat_sub`: the value of each operation in `Nat`.
-/

namespace BufferPlan.Saturating

/-- The largest 64-bit count. -/
def top : Nat := UInt64.size - 1

/-- The word nearest to `n` from below. -/
def clamp (n : Nat) : UInt64 := UInt64.ofNat (min n top)

/-- The sum, held at the largest word. -/
def add (a b : UInt64) : UInt64 := clamp (a.toNat + b.toNat)

/-- The product, held at the largest word. -/
def mul (a b : UInt64) : UInt64 := clamp (a.toNat * b.toNat)

/-- The difference, held at zero. -/
def sub (a b : UInt64) : UInt64 := clamp (a.toNat - b.toNat)

/-- The sum of a list, added up from the left. -/
def sum (l : List UInt64) : UInt64 := l.foldl add 0

/-! ## Values in `Nat` -/

theorem toNat_le_top (a : UInt64) : a.toNat ≤ top := by
  have := a.toNat_lt_size
  simp only [top]
  omega

@[simp] theorem toNat_clamp (n : Nat) : (clamp n).toNat = min n top := by
  have : min n top < UInt64.size := by simp only [top, UInt64.size]; omega
  simp only [clamp, UInt64.toNat_ofNat']
  exact Nat.mod_eq_of_lt this

@[simp] theorem toNat_add (a b : UInt64) : (add a b).toNat = min (a.toNat + b.toNat) top :=
  toNat_clamp _

@[simp] theorem toNat_mul (a b : UInt64) : (mul a b).toNat = min (a.toNat * b.toNat) top :=
  toNat_clamp _

@[simp] theorem toNat_sub (a b : UInt64) : (sub a b).toNat = a.toNat - b.toNat := by
  have := toNat_le_top a
  simp only [sub, toNat_clamp]
  omega

end BufferPlan.Saturating
