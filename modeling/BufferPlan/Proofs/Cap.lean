import BufferPlan.Proofs.Regimes

/-!
# What a cap does to a gate

A cap does two things. It limits the target, and it takes the place of the threshold that the kind
of the gate sets otherwise: none for a live gate, and 1000 for a blocking one. The first can only
lower what a gate announces. The second can raise it: every buffer of a blocking gate floats once
its exclusive ones reach 1000, and under a cap above them the gate pins them again. Beside pinned
buffers one is kept to float, and a gate without floating buffers of its own has none to keep, so
it announces one more (`Gate.Repins`).

* `Gate.Exact.target_withCap_some`: under a cap the target depends on the exclusive and the spare
  buffers alone.
* `Gate.Exact.target_withCap_none_of_floats`, `Gate.Exact.target_withCap_none_of_pins`: without one
  it depends on the regime.
* **`Gate.standing_under_cap`**: both compared, for every kind, count, tuning value and cap.
-/

namespace BufferPlan

/-- The tuning values with a cap set, or with none. -/
def Tuning.withCap (t : Tuning) (cap? : Option UInt32) : Tuning := { t with gateCap := cap? }

namespace Gate

variable {kind : Kind} {n : Count} {t : Tuning} {cap cap' : UInt32}

@[simp] theorem allExclusive_withCap (n : Count) (t : Tuning) (cap? : Option UInt32) :
    allExclusive n (t.withCap cap?) = allExclusive n t := rfl

/-- Without a cap every buffer of the gate floats, and the cap is above its exclusive ones. The gate
has no floating buffers of its own to keep one of beside them. -/
structure Repins (kind : Kind) (n : Count) (t : Tuning) (cap : UInt32) : Prop where
  blocking : kind.isBlocking = true
  noFloating : t.floatingPerGate = 0
  floats : 1000 ≤ allExclusive n t
  above : allExclusive n t < cap.toNat

namespace Exact

/-- Under a cap neither the kind nor the regime shows. -/
theorem target_withCap_some (kind : Kind) (n : Count) (t : Tuning) (cap : UInt32) :
    target kind n (t.withCap (some cap)) = min cap.toNat (allExclusive n t + spare t) :=
  target_of_cap rfl

/-- Without a cap the threshold is that of the kind. -/
theorem threshold_withCap_none (kind : Kind) (t : Tuning) :
    threshold kind (t.withCap none) = if kind.isBlocking = true then 1000 else 2 ^ 64 - 1 := by
  cases kind <;> rfl

theorem target_withCap_none_of_floats (hblocking : kind.isBlocking = true)
    (hfloats : 1000 ≤ allExclusive n t) :
    target kind n (t.withCap none) = allExclusive n t + t.floatingPerGate.toNat := by
  have hthreshold : threshold kind (t.withCap none) ≤ allExclusive n (t.withCap none) := by
    rwa [threshold_withCap_none, if_pos hblocking]
  exact target_of_le hthreshold rfl

theorem target_withCap_none_of_pins
    (hpins : ¬ (kind.isBlocking = true ∧ 1000 ≤ allExclusive n t)) :
    target kind n (t.withCap none) = allExclusive n t + spare t := by
  have hthreshold : allExclusive n (t.withCap none) < threshold kind (t.withCap none) := by
    rw [threshold_withCap_none, allExclusive_withCap]
    by_cases hblocking : kind.isBlocking = true
    · rw [if_pos hblocking]
      exact Nat.lt_of_not_le fun hfloats => hpins ⟨hblocking, hfloats⟩
    · have hall := allExclusive_le n t
      rw [if_neg hblocking]
      omega
  exact target_of_lt hthreshold rfl

/-- **A cap that lets a gate pin its buffers again costs one buffer.** -/
theorem target_withCap_of_repins (h : Repins kind n t cap) :
    target kind n (t.withCap (some cap)) = target kind n (t.withCap none) + 1 := by
  have habove := h.above
  rw [target_withCap_some, target_withCap_none_of_floats h.blocking h.floats, spare, h.noFloating,
    UInt32.toNat_zero]
  omega

/-- **Any other cap never gets a gate more.** -/
theorem target_withCap_of_not_repins (h : ¬ Repins kind n t cap) :
    target kind n (t.withCap (some cap)) ≤ target kind n (t.withCap none) := by
  rw [target_withCap_some]
  by_cases hfloats : kind.isBlocking = true ∧ 1000 ≤ allExclusive n t
  · -- the gate floats, so it has floating buffers or the cap is not above its exclusive ones
    have hor : 1 ≤ t.floatingPerGate.toNat ∨ cap.toNat ≤ allExclusive n t := by
      by_contra hneither
      rw [not_or, Nat.not_le, Nat.not_le] at hneither
      have hzero : t.floatingPerGate = 0 :=
        UInt32.toNat_inj.mp (Nat.lt_one_iff.mp hneither.1)
      exact h ⟨hfloats.1, hzero, hfloats.2, hneither.2⟩
    rw [target_withCap_none_of_floats hfloats.1 hfloats.2, spare]
    omega
  · rw [target_withCap_none_of_pins hfloats]
    exact Nat.min_le_right _ _

theorem target_withCap_mono (h : cap ≤ cap') :
    target kind n (t.withCap (some cap)) ≤ target kind n (t.withCap (some cap')) := by
  have hle := UInt32.le_iff_toNat_le.mp h
  rw [target_withCap_some, target_withCap_some]
  omega

/-- A cap that leaves room for all exclusive and spare buffers does not show. -/
theorem target_withCap_of_roomy (h : allExclusive n t + spare t ≤ cap.toNat) :
    target kind n (t.withCap (some cap)) = allExclusive n t + spare t := by
  rw [target_withCap_some]
  exact Nat.min_eq_right h

end Exact

/-- **What a cap does to a gate.** It never gets a gate more than it announces without a cap, except
that it gets one buffer more for a blocking gate without floating buffers whose exclusive ones are
at least 1000 and below the cap. A larger cap never gets a gate less. A cap with room for all
exclusive buffers and for the floating ones, or for one, gets the same as any other such cap for
any kind. -/
theorem standing_under_cap (kind : Kind) (n : Count) (t : Tuning) :
    (∀ cap, Policy.standing kind n (t.withCap (some cap)) ≤
        Policy.standing kind n (t.withCap none) ↔ ¬ Repins kind n t cap) ∧
    (∀ cap, Repins kind n t cap → (Policy.standing kind n (t.withCap (some cap))).toNat =
      (Policy.standing kind n (t.withCap none)).toNat + 1) ∧
    (∀ cap cap', cap ≤ cap' → Policy.standing kind n (t.withCap (some cap)) ≤
      Policy.standing kind n (t.withCap (some cap'))) ∧
    ∀ kind' (cap cap' : UInt32),
      allExclusive n t + max 1 t.floatingPerGate.toNat ≤ cap.toNat →
      allExclusive n t + max 1 t.floatingPerGate.toNat ≤ cap'.toNat →
      Policy.standing kind n (t.withCap (some cap)) =
        Policy.standing kind' n (t.withCap (some cap')) := by
  simp only [UInt64.le_iff_toNat_le, ← UInt64.toNat_inj, Policy.standing, Exact.toNat_target]
  refine ⟨fun cap => ⟨fun hle hrepins => ?_, Exact.target_withCap_of_not_repins⟩,
    fun cap => Exact.target_withCap_of_repins, fun cap cap' => Exact.target_withCap_mono,
    fun kind' cap cap' hcap hcap' => ?_⟩
  · rw [Exact.target_withCap_of_repins hrepins] at hle
    exact Nat.not_succ_le_self _ hle
  · exact (Exact.target_withCap_of_roomy hcap).trans (Exact.target_withCap_of_roomy hcap').symm

/-- All 1000 exclusive buffers float without a cap, and under a cap of 2000 they are pinned beside
one more. -/
example : (Policy.standing .blocking ⟨500, by decide⟩ (Tuning.withCap { floatingPerGate := 0 } none),
    Policy.standing .blocking ⟨500, by decide⟩
      (Tuning.withCap { floatingPerGate := 0 } (some 2000))) = (1000, 1001) := by
  decide

end Gate

end BufferPlan
