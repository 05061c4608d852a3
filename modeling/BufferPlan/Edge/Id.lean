import BufferPlan.Text.Hex

/-!
# Edge identifiers

An edge is one logical input or output of a task. Its id is an opaque 64-bit number; the order of
ids fixes the order in which edges are visited and means nothing else.
-/

namespace BufferPlan

/-- The identifier of one input or output edge of a task. -/
structure EdgeId where
  raw : UInt64
deriving DecidableEq, Repr

namespace EdgeId

instance : LT EdgeId := ⟨fun a b => a.raw < b.raw⟩

instance : LE EdgeId := ⟨fun a b => a.raw ≤ b.raw⟩

instance (a b : EdgeId) : Decidable (a < b) := inferInstanceAs (Decidable (a.raw < b.raw))

instance (a b : EdgeId) : Decidable (a ≤ b) := inferInstanceAs (Decidable (a.raw ≤ b.raw))

/-- The id in messages and events: sixteen lower-case hexadecimal digits. -/
def hex (id : EdgeId) : String := String.ofList (Text.Hex.fixed 16 id.raw.toNat)

theorem lt_iff {a b : EdgeId} : a < b ↔ a.raw.toNat < b.raw.toNat := UInt64.lt_iff_toNat_lt

theorem le_iff {a b : EdgeId} : a ≤ b ↔ a.raw.toNat ≤ b.raw.toNat := UInt64.le_iff_toNat_le

theorem eq_iff {a b : EdgeId} : a = b ↔ a.raw.toNat = b.raw.toNat := by
  obtain ⟨a⟩ := a
  obtain ⟨b⟩ := b
  simp only [EdgeId.mk.injEq, UInt64.toNat_inj]

theorem lt_trans {a b c : EdgeId} (hab : a < b) (hbc : b < c) : a < c := by
  rw [lt_iff] at *
  omega

theorem lt_irrefl (a : EdgeId) : ¬a < a := by
  rw [lt_iff]
  omega

/-- Two ids that are neither ordered one way nor equal are ordered the other way. -/
theorem lt_of_not_lt_of_ne {a b : EdgeId} (h : ¬a < b) (hne : a ≠ b) : b < a := by
  rw [lt_iff] at *
  rw [ne_eq, eq_iff] at hne
  omega

end EdgeId

end BufferPlan
