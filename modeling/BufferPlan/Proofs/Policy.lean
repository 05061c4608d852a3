import BufferPlan.Proofs.Regimes

/-!
# The standing policy is admissible

What a gate announces is left to a policy, of which two things are asked: more channels never get
less, and a cap is kept. The standing policy announces the target of the layout. It is admissible,
and it grows no faster than the exclusive buffers do.

Where a gate without a cap passes from pinned to floating buffers, the one buffer is lost that is
kept beside pinned ones if there are no floating buffers otherwise. The gate passes only when its
exclusive buffers have grown by one at least, and that makes up for it.

* `Gate.Policy.Admissible`: what is asked of a policy.
* `Gate.Exact.target_growth`: the target grows as the exclusive buffers do, and no faster.
* **`Gate.standing_admissible`**: the standing policy.
-/

namespace BufferPlan.Gate

/-- What is asked of a policy. -/
structure Policy.Admissible (policy : Policy) : Prop where
  /-- More channels never get less. -/
  mono : ∀ kind (n n' : Count) t, n.val ≤ n'.val → policy kind n t ≤ policy kind n' t
  /-- A cap is kept. -/
  capped : ∀ kind n (t : Tuning) cap, t.gateCap = some cap → policy kind n t ≤ cap.toUInt64

variable {kind : Kind} {n n' : Count} {t : Tuning}

namespace Exact

/-- **The target grows as the exclusive buffers do, and no faster**, also where the gate passes from
one regime to the other. -/
theorem target_growth (kind : Kind) (h : allExclusive n t ≤ allExclusive n' t) :
    target kind n t ≤ target kind n' t ∧
      target kind n' t ≤ target kind n t + (allExclusive n' t - allExclusive n t) := by
  cases hcap : t.gateCap with
  | some cap =>
    rw [target_of_cap hcap, target_of_cap hcap]
    omega
  | none =>
    have hspare : t.floatingPerGate.toNat ≤ spare t ∧ spare t ≤ t.floatingPerGate.toNat + 1 := by
      rw [spare]
      omega
    rcases Nat.lt_or_ge (allExclusive n' t) (threshold kind t) with h' | h'
    · rw [target_of_lt h' hcap, target_of_lt (lt_of_le_of_lt h h') hcap]
      omega
    · rw [target_of_le h' hcap]
      rcases Nat.lt_or_ge (allExclusive n t) (threshold kind t) with h₀ | h₀
      · rw [target_of_lt h₀ hcap]
        omega
      · rw [target_of_le h₀ hcap]
        omega

theorem target_le_cap {cap : UInt32} (hcap : t.gateCap = some cap) :
    target kind n t ≤ cap.toNat := by
  rw [target_of_cap hcap]
  exact Nat.min_le_left _ _

end Exact

/-- **More channels never get less, and not much more**: what a gate announces rises by no more than
the exclusive buffers of the channels it has gained. -/
theorem standing_growth (kind : Kind) (t : Tuning) (h : n.val ≤ n'.val) :
    Policy.standing kind n t ≤ Policy.standing kind n' t ∧
      (Policy.standing kind n' t).toNat ≤ (Policy.standing kind n t).toNat +
        (n'.val.toNat - n.val.toNat) * t.buffersPerChannel.toNat := by
  have hall : allExclusive n t ≤ allExclusive n' t :=
    Nat.mul_le_mul_right _ (UInt32.le_iff_toNat_le.mp h)
  have hgrowth := Exact.target_growth kind hall
  have hdiff : (n'.val.toNat - n.val.toNat) * t.buffersPerChannel.toNat =
      allExclusive n' t - allExclusive n t := Nat.sub_mul _ _ _
  rw [UInt64.le_iff_toNat_le, hdiff]
  simp only [Policy.standing, Exact.toNat_target]
  exact hgrowth

theorem standing_le_cap {cap : UInt32} (hcap : t.gateCap = some cap) :
    Policy.standing kind n t ≤ cap.toUInt64 := by
  rw [UInt64.le_iff_toNat_le, Policy.standing, Exact.toNat_target, UInt32.toNat_toUInt64]
  exact Exact.target_le_cap hcap

/-- **The standing policy is admissible, and grows no faster than the exclusive buffers.** One
channel more never gets less and raises what a gate announces by no more than its own exclusive
buffers, and so do any number of channels. A gate announces at least what it requires and, with a
cap, no more than the cap. -/
theorem standing_admissible :
    Policy.standing.Admissible ∧ ∀ (kind : Kind) (t : Tuning),
      (∀ n n' : Count, n'.val.toNat = n.val.toNat + 1 →
        Policy.standing kind n t ≤ Policy.standing kind n' t ∧
          (Policy.standing kind n' t).toNat ≤
            (Policy.standing kind n t).toNat + t.buffersPerChannel.toNat) ∧
      (∀ n n' : Count, n.val ≤ n'.val →
        Policy.standing kind n t ≤ Policy.standing kind n' t ∧
          (Policy.standing kind n' t).toNat ≤ (Policy.standing kind n t).toNat +
            (n'.val.toNat - n.val.toNat) * t.buffersPerChannel.toNat) ∧
      (∀ n, (layout kind n t).required ≤ Policy.standing kind n t) ∧
      (∀ n cap, t.gateCap = some cap → Policy.standing kind n t ≤ cap.toUInt64) := by
  refine ⟨⟨fun kind _ _ t h => (standing_growth kind t h).1, fun _ _ _ _ => standing_le_cap⟩,
    fun kind t => ⟨fun n n' hsucc => ?_, fun _ _ => standing_growth kind t, fun n => ?_,
      fun _ _ => standing_le_cap⟩⟩
  · have hle : n.val ≤ n'.val := UInt32.le_iff_toNat_le.mpr (by omega)
    have hgrowth := standing_growth kind t hle
    rwa [hsucc, Nat.add_sub_cancel_left, Nat.one_mul] at hgrowth
  · exact UInt64.le_iff_toNat_le.mpr (required_le_target kind n t)

/-- A blocking gate without floating buffers of its own passes the threshold with its 500th channel:
it loses the buffer beside its 998 pinned ones. -/
example : (Policy.standing .blocking ⟨499, by decide⟩ { floatingPerGate := 0 },
    Policy.standing .blocking ⟨500, by decide⟩ { floatingPerGate := 0 }) = (999, 1000) := by
  decide

end BufferPlan.Gate
