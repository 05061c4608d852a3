/-!
# Pool bounds

A pool of buffers may be sized anywhere between a floor and a ceiling; a pool without a ceiling is
unbounded. Bounds are made by `Bounds.between`, which lifts a ceiling below the floor up to the
floor, and by `Bounds.atLeast`, so that every pool can be given its floor (`Bounds.Ordered`).
-/

namespace BufferPlan

/-- The smallest and the largest size a pool may be given. -/
structure Bounds where
  /-- The buffers without which the pool cannot be made. -/
  floor : UInt64
  /-- The most buffers the pool may be given, or `none` if there is no limit. -/
  ceiling? : Option UInt64
deriving DecidableEq, Repr

namespace Bounds

/-- The floor does not exceed the ceiling. -/
def Ordered (b : Bounds) : Prop := ∀ c ∈ b.ceiling?, b.floor ≤ c

/-- Bounds with a ceiling, which is lifted to the floor if it lies below. -/
def between (floor ceiling : UInt64) : Bounds := ⟨floor, some (max ceiling floor)⟩

/-- Bounds without a ceiling. -/
def atLeast (floor : UInt64) : Bounds := ⟨floor, none⟩

/-- Bounds from a floor and a ceiling that may be missing. -/
def of (floor : UInt64) : Option UInt64 → Bounds
  | some ceiling => between floor ceiling
  | none => atLeast floor

/-- The pool may grow without limit. -/
def isUnbounded (b : Bounds) : Bool := b.ceiling?.isNone

theorem ordered_between (lo hi : UInt64) : (between lo hi).Ordered := by
  rintro c ⟨⟩
  simp only [between, UInt64.le_iff_toNat_le]
  rw [show (max hi lo) = if hi ≤ lo then lo else hi from rfl]
  split
  · exact Nat.le_refl _
  · rename_i h
    rw [UInt64.le_iff_toNat_le] at h
    omega

theorem ordered_atLeast (lo : UInt64) : (atLeast lo).Ordered := by
  rintro c ⟨⟩

theorem ordered_of (lo : UInt64) (hi? : Option UInt64) : (of lo hi?).Ordered := by
  cases hi?
  · exact ordered_atLeast lo
  · exact ordered_between lo _

end Bounds

end BufferPlan
