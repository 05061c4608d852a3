import BufferPlan.Fit
import BufferPlan.Proofs.Failure
import BufferPlan.Proofs.Pools

/-!
# The announcement of the standing policy is the footprint

A fit sets two numbers side by side that are computed apart: the announcement of a policy, which is
added up side by side, and the footprint of the pools, which is added up in one sum that can give up at
a pool without a ceiling. The footprint never gives up on a task that is planned, and it is what the
**standing** policy announces, whatever policy the announcement follows.

* `footprint?_of_matches`: the footprint of pools that match shares is the sum of the shares.
* `Task.outcome_fit_of_announcement`: what a fit reports.
* `Task.announcement_mono`: a policy that announces more for every input edge announces more in all.
* `Task.fit_covers_pools`: when the announcement fits.
-/

namespace BufferPlan

variable {policy policy' : Gate.Policy} {t : Tuning} {task : Task}

open Saturating (toNat_sum)

/-! ## The two sums -/

/-- The clamps of the two sides do not show in the total. -/
theorem Plan.Accounts.total_eq_sum {p : Plan} {l : List Share} (h : p.Accounts l) :
    p.total = Saturating.sum (l.map Share.buffers) := by
  apply UInt64.toNat_inj.mp
  rw [h.total, sideSum_input_add_output, toNat_sum, List.map_map]
  rfl

/-- Pools that match shares have a footprint from any start. -/
theorem foldlM_peak_of_matches {pools : List Pool} {shares : List Share}
    (h : List.Forall₂ Pool.Matches pools shares) (a : UInt64) :
    pools.foldlM (fun total pool => pool.peak?.map (Saturating.add total)) a =
      some ((shares.map Share.buffers).foldl Saturating.add a) := by
  induction h generalizing a with
  | nil => rfl
  | cons hmatch _ ih =>
    rw [List.foldlM_cons, hmatch.peak]
    exact ih _

/-- **The footprint of pools that match shares is the sum of the shares.** -/
theorem footprint?_of_matches {pools : List Pool} {shares : List Share}
    (h : List.Forall₂ Pool.Matches pools shares) :
    footprint? pools = some (Saturating.sum (shares.map Share.buffers)) :=
  foldlM_peak_of_matches h 0

namespace Task

/-- A task that one policy can be announced for can be announced for every policy. -/
theorem exists_announcement {n : UInt64} (h : (task.announcement policy t).outcome = .ok n)
    (policy' : Gate.Policy) : ∃ n', (task.announcement policy' t).outcome = .ok n' := by
  obtain ⟨p, hp, -⟩ := announcement_eq_ok_iff.mp h
  obtain ⟨p', hp'⟩ : ∃ p', (task.plan policy' t).outcome = .ok p' :=
    exists_plan_iff.mpr (exists_plan_iff.mp ⟨p, hp⟩)
  exact ⟨p'.total, announcement_eq_ok_iff.mpr ⟨p', hp', rfl⟩⟩

/-- The pools of a planned task have a footprint: what the standing policy announces. -/
theorem footprint?_of_announcement {d : UInt64}
    (h : (task.announcement .standing t).outcome = .ok d) :
    ∃ pools, task.pools t = .ok pools ∧ footprint? pools = some d := by
  obtain ⟨p, hp, rfl⟩ := announcement_eq_ok_iff.mp h
  obtain ⟨pools, hpools, hmatch⟩ := forall₂_matches_of_plan hp
  refine ⟨pools, hpools, ?_⟩
  obtain ⟨ins, outs, shares, -, -, -, rfl⟩ := plan_eq_ok_iff.mp hp
  have hacc := Plan.accounts_ofShares (ins.map (InputEdge.planned .standing t) ++ shares)
  rw [footprint?_of_matches hmatch, hacc.shares, hacc.total_eq_sum]

/-! ## What a fit reports -/

/-- A shortfall is reported as an event and does not change the outcome. -/
theorem outcome_fit (policy : Gate.Policy) (t : Tuning) (task : Task) :
    (task.fit policy t).outcome = (do
      let announced ← (task.announcement policy t).outcome
      let pools ← task.pools t
      return ⟨announced, footprint? pools⟩) := by
  rw [fit, Traced.outcome_bind]
  refine congrArg (_ >>= ·) (funext fun announced => ?_)
  rw [Traced.outcome_bind]
  refine congrArg (_ >>= ·) (funext fun pools => ?_)
  dsimp only
  split
  · rfl
  · rfl

/-- **What a fit reports.** It sets the announcement of its policy beside that of the standing one. -/
theorem outcome_fit_of_announcement {n : UInt64}
    (h : (task.announcement policy t).outcome = .ok n) :
    ∃ d, (task.announcement .standing t).outcome = .ok d ∧
      (task.fit policy t).outcome = .ok ⟨n, some d⟩ := by
  obtain ⟨d, hd⟩ := exists_announcement h .standing
  obtain ⟨pools, hpools, hfootprint⟩ := footprint?_of_announcement hd
  refine ⟨d, hd, ?_⟩
  rw [outcome_fit, h, hpools]
  show Except.ok (Fit.mk n (footprint? pools)) = _
  rw [hfootprint]

theorem fit_eq_error_iff {x : PlanError} :
    (task.fit policy t).outcome = .error x ↔ (task.announcement policy t).outcome = .error x := by
  cases h : (task.announcement policy t).outcome with
  | error y =>
    rw [outcome_fit, h]
    show Except.error y = Except.error x ↔ Except.error y = Except.error x
    rw [Except.error.injEq, Except.error.injEq]
  | ok n =>
    obtain ⟨d, -, hfit⟩ := outcome_fit_of_announcement h
    rw [hfit]
    simp

/-! ## When the announcement fits -/

/-- **More for every input edge is more in all.** -/
theorem announcement_mono {ins : List InputEdge} (hins : task.inputs.resolve = .ok ins)
    (hle : ∀ e ∈ ins, policy e.kind e.channels t ≤ policy' e.kind e.channels t) {n n' : UInt64}
    (h : (task.announcement policy t).outcome = .ok n)
    (h' : (task.announcement policy' t).outcome = .ok n') : n ≤ n' := by
  obtain ⟨p, hp, rfl⟩ := announcement_eq_ok_iff.mp h
  obtain ⟨p', hp', rfl⟩ := announcement_eq_ok_iff.mp h'
  obtain ⟨ins₁, outs, shares, hins₁, houts, hshares, rfl⟩ := plan_eq_ok_iff.mp hp
  obtain ⟨ins₂, outs', shares', hins₂, houts', hshares', rfl⟩ := plan_eq_ok_iff.mp hp'
  -- both runs join the same edges and give the outputs the same shares
  obtain rfl : ins = ins₁ := Except.ok.inj (hins.symm.trans hins₁)
  obtain rfl : ins = ins₂ := Except.ok.inj (hins.symm.trans hins₂)
  obtain rfl : outs = outs' := Except.ok.inj (houts.symm.trans houts')
  obtain rfl : shares = shares' := Except.ok.inj (hshares.symm.trans hshares')
  have hsum : Saturating.sum (ins.map (InputEdge.announced policy t)) ≤
      Saturating.sum (ins.map (InputEdge.announced policy' t)) := by
    apply Saturating.sum_mono
    intro e he
    exact Saturating.mul_mono (hle e he) (UInt64.le_refl _)
  rw [(Plan.accounts_ofShares _).total_eq_sum, (Plan.accounts_ofShares _).total_eq_sum,
    List.map_append, List.map_append, Saturating.sum_append, Saturating.sum_append, List.map_map,
    List.map_map]
  exact Saturating.add_mono hsum (UInt64.le_refl _)

theorem fits_iff {n d : UInt64} : Fit.fits ⟨n, some d⟩ = true ↔ d ≤ n := by
  unfold Fit.fits
  exact decide_eq_true_iff

/-- **The fit guarantee.** A fit fails exactly as the announcement does. Otherwise its footprint is
what the standing policy announces, so it fits iff its own announcement is not smaller. The standing
policy announces the footprint exactly, and so every policy fits that announces no less for any
input edge. -/
theorem fit_covers_pools (policy : Gate.Policy) (t : Tuning) (task : Task) :
    (∀ x, (task.fit policy t).outcome = .error x ↔
      (task.announcement policy t).outcome = .error x) ∧
    (∀ r, (task.fit policy t).outcome = .ok r → ∃ d,
      (task.announcement .standing t).outcome = .ok d ∧ r.footprint? = some d ∧
      (task.announcement policy t).outcome = .ok r.announced ∧
      (r.fits = true ↔ d ≤ r.announced)) ∧
    (∀ d, (task.announcement .standing t).outcome = .ok d → ∃ r,
      (task.fit .standing t).outcome = .ok r ∧ r.announced = d ∧ r.footprint? = some d ∧
      r.fits = true) ∧
    (∀ ins d, task.inputs.resolve = .ok ins → (task.announcement .standing t).outcome = .ok d →
      (∀ e ∈ ins, Gate.Policy.standing e.kind e.channels t ≤ policy e.kind e.channels t) →
      ∃ r, (task.fit policy t).outcome = .ok r ∧ r.fits = true) := by
  refine ⟨fun x => fit_eq_error_iff, ?_, ?_, ?_⟩
  · intro r hr
    cases hn : (task.announcement policy t).outcome with
    | error x =>
      rw [fit_eq_error_iff.mpr hn] at hr
      cases hr
    | ok n =>
      obtain ⟨d, hd, hfit⟩ := outcome_fit_of_announcement hn
      obtain rfl := Except.ok.inj (hfit.symm.trans hr)
      exact ⟨d, hd, rfl, rfl, fits_iff⟩
  · intro d hd
    obtain ⟨d', hd', hfit⟩ := outcome_fit_of_announcement hd
    obtain rfl := Except.ok.inj (hd.symm.trans hd')
    exact ⟨_, hfit, rfl, rfl, fits_iff.mpr (UInt64.le_refl _)⟩
  · intro ins d hins hd hle
    obtain ⟨n, hn⟩ := exists_announcement hd policy
    obtain ⟨d', hd', hfit⟩ := outcome_fit_of_announcement hn
    exact ⟨_, hfit, fits_iff.mpr (announcement_mono hins hle hd' hn)⟩

/-- One buffer for each gate is less than a gate of four channels holds. -/
example : (Task.fit (fun _ _ _ => 1) { buffersPerChannel := 5 }
    ⟨Inputs.insert {} ⟨1⟩ .blocking 4 1, {}⟩).outcome = .ok ⟨1, some 28⟩ := rfl

end Task

end BufferPlan
