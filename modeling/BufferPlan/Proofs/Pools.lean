import BufferPlan.Footprint
import BufferPlan.Proofs.Layout
import BufferPlan.Proofs.Plan
import BufferPlan.Proofs.Resolve

/-!
# Pools and shares agree edge by edge

The pools of a task are laid out apart from its plan: they are sized by the layout and not by the
policy, they decide again whether channels pin their buffers, and they are given for every task whose
maps can be joined, also where a pool has no ceiling. Under the standing policy both agree on every
edge: what an edge announces is what its pool holds at its peak.

* `InputEdge.peak?_pool`, `OutputEdge.peak?_pool`: the peak of a pool is what its edge announces.
* `Task.forall₂_matches_of_plan`: the shares of a plan match the pools one by one.
* `Task.find?_of_plan_eq_error`: the pool without a ceiling that is refused is the first one.
-/

namespace BufferPlan

variable {t : Tuning} {task : Task}

/-! ## One edge -/

namespace InputEdge

/-- The pool pins what the layout pins, although it compares again. -/
theorem toNat_exclusive_pool (e : InputEdge) :
    (e.pool t).exclusive.toNat = Gate.pinned e.kind e.channels t := by
  have hall := Gate.toNat_allExclusive e.channels t
  unfold pool Gate.pinned
  simp only [UInt64.lt_iff_toNat_lt, hall]
  split
  · exact hall
  · rfl

/-- **What is pinned and the whole floating pool make up the target.** -/
theorem toNat_exclusive_add_floating (e : InputEdge) :
    (e.pool t).exclusive.toNat + (Gate.layout e.kind e.channels t).floating.toNat =
      (Gate.layout e.kind e.channels t).target.toNat := by
  have hpinned := Gate.pinned_le_required e.kind e.channels t
  have htarget := Gate.required_le_target e.kind e.channels t
  rw [e.toNat_exclusive_pool, Gate.toNat_floating]
  omega

theorem exclusive_add_floating (e : InputEdge) :
    (e.pool t).exclusive + (Gate.layout e.kind e.channels t).floating =
      (Gate.layout e.kind e.channels t).target := by
  have hsum := e.toNat_exclusive_add_floating (t := t)
  have hlt := (Gate.layout e.kind e.channels t).target.toNat_lt_size
  apply UInt64.toNat_inj.mp
  rw [toNat_add_of_lt, hsum]
  rwa [hsum]

/-- **The peak of a gate is its target**, which is never below what the gate requires. -/
theorem max_exclusive_add_floating (e : InputEdge) :
    max ((e.pool t).exclusive + (Gate.layout e.kind e.channels t).floating)
        (Gate.layout e.kind e.channels t).required =
      (Gate.layout e.kind e.channels t).target := by
  apply UInt64.toNat_inj.mp
  rw [e.exclusive_add_floating, toNat_max]
  exact Nat.max_eq_left (Gate.required_le_target e.kind e.channels t)

/-- **What an input edge announces by the standing policy is what its gates hold at their peak.** -/
theorem peak?_pool (e : InputEdge) : (e.pool t).peak? = some (e.announced .standing t) := by
  have hpeak := e.max_exclusive_add_floating (t := t)
  have hunfold : (e.pool t).peak? =
      ((Gate.layout e.kind e.channels t).floatingPool e.channels).ceiling?.map fun ceiling =>
        Saturating.mul (max ((e.pool t).exclusive + ceiling)
          (Gate.layout e.kind e.channels t).required) e.reuse.toUInt64 := rfl
  rw [hunfold, Gate.floatingPool_eq, Option.map_some, hpeak]
  rfl

end InputEdge

theorem OutputEdge.peak?_pool (e : OutputEdge) : (e.pool t).peak? = e.announced? t := rfl

/-- A share stands for a pool: of the same edge and side, and with its peak as buffers. -/
structure Pool.Matches (pool : Pool) (s : Share) : Prop where
  edge : pool.edge = s.edge
  side : pool.side = s.side
  peak : pool.peak? = some s.buffers

theorem InputEdge.matches_planned (e : InputEdge) : (e.pool t).Matches (e.planned .standing t) :=
  ⟨rfl, rfl, e.peak?_pool⟩

theorem OutputEdge.matches_of_share {e : OutputEdge} {s : Share}
    (h : (e.share t).outcome = .ok s) : (e.pool t).Matches s := by
  obtain ⟨n, hn, rfl⟩ := share_eq_ok_iff.mp h
  exact ⟨rfl, rfl, e.peak?_pool.trans hn⟩

/-- An output edge is refused where its pool has no peak. -/
theorem OutputEdge.share_eq_error_iff_peak? {e : OutputEdge} {x : PlanError} :
    (e.share t).outcome = .error x ↔
      (e.pool t).peak? = none ∧ x = .unbounded (some e.id) e.kind := by
  rw [peak?_pool, announced?, Partition.announced?_eq_none_iff]
  exact share_eq_error_iff

theorem OutputEdge.not_isOk_share (e : OutputEdge) :
    (!(e.share t).outcome.isOk) = (e.pool t).peak?.isNone := by
  rw [peak?_pool, outcome_share]
  cases e.announced? t with
  | none => rfl
  | some n => rfl

/-! ## The whole task -/

namespace Task

theorem pools_eq_ok_iff {pools : List Pool} :
    task.pools t = .ok pools ↔
      ∃ ins outs, task.inputs.resolve = .ok ins ∧ task.outputs.resolve = .ok outs ∧
        ins.map (InputEdge.pool t) ++ outs.map (OutputEdge.pool t) = pools := by
  simp only [Task.pools, bind_eq_ok_iff]
  constructor
  · rintro ⟨ins, hins, outs, houts, h⟩
    exact ⟨ins, outs, hins, houts, Except.ok.inj h⟩
  · rintro ⟨ins, outs, hins, houts, rfl⟩
    exact ⟨ins, hins, outs, houts, rfl⟩

/-- The pools fail with the joins and in no other way. -/
theorem pools_eq_error_iff {x : PlanError} :
    task.pools t = .error x ↔
      task.inputs.resolve = .error x ∨
        ∃ ins, task.inputs.resolve = .ok ins ∧ task.outputs.resolve = .error x := by
  simp only [Task.pools, bind_eq_error_iff]
  refine or_congr_right (exists_congr fun ins => and_congr_right fun _ => ?_)
  exact or_iff_left fun ⟨outs, _, h⟩ => by cases h

theorem plan_eq_error_of_pools {policy : Gate.Policy} {x : PlanError}
    (h : task.pools t = .error x) : (task.plan policy t).outcome = .error x := by
  rw [plan_eq_error_iff]
  rcases pools_eq_error_iff.mp h with hins | ⟨ins, hins, houts⟩
  · exact Or.inl hins
  · exact Or.inr ⟨ins, hins, Or.inl houts⟩

/-- **The shares of a plan match the pools one by one.** -/
theorem forall₂_matches_of_plan {p : Plan} (h : (task.plan .standing t).outcome = .ok p) :
    ∃ pools, task.pools t = .ok pools ∧ List.Forall₂ Pool.Matches pools p.shares := by
  obtain ⟨ins, outs, shares, hins, houts, hshares, rfl⟩ := plan_eq_ok_iff.mp h
  refine ⟨_, pools_eq_ok_iff.mpr ⟨ins, outs, hins, houts, rfl⟩, ?_⟩
  rw [(Plan.accounts_ofShares _).shares]
  apply List.rel_append
  · rw [List.forall₂_map_left_iff, List.forall₂_map_right_iff, List.forall₂_same]
    intro e _
    exact e.matches_planned
  · rw [List.forall₂_map_left_iff]
    exact (mapM_eq_ok_iff.mp hshares).imp fun _ _ => OutputEdge.matches_of_share

/-- **The pool that is refused is the first without a ceiling**, and it is the pool of an output. -/
theorem find?_of_plan_eq_error {pools : List Pool} {x : PlanError} (hpools : task.pools t = .ok pools)
    (h : (task.plan .standing t).outcome = .error x) :
    ∃ pool kind, pools.find? (fun q => q.peak?.isNone) = some pool ∧ pool.side = .output ∧
      x = .unbounded (some pool.edge) kind := by
  obtain ⟨ins, outs, hins, houts, rfl⟩ := pools_eq_ok_iff.mp hpools
  have hshares : (outs.mapM fun e => (e.share t).outcome) = .error x := by
    rcases plan_eq_error_iff.mp h with hx | ⟨_, -, hx | ⟨outs', houts', hx⟩⟩
    · rw [hins] at hx
      cases hx
    · rw [houts] at hx
      cases hx
    · rw [houts] at houts'
      cases houts'
      exact hx
  obtain ⟨e, hfirst, hx⟩ := mapM_eq_error_iff_find?.mp hshares
  obtain ⟨-, rfl⟩ := OutputEdge.share_eq_error_iff_peak?.mp hx
  refine ⟨e.pool t, e.kind, ?_, rfl, rfl⟩
  -- every gate has a peak, so the search goes on to the outputs
  have hgates : (ins.map (InputEdge.pool t)).find? (fun q => q.peak?.isNone) = none := by
    rw [List.find?_eq_none]
    intro q hq
    obtain ⟨i, -, rfl⟩ := List.mem_map.mp hq
    rw [i.peak?_pool]
    simp
  simp only [OutputEdge.not_isOk_share] at hfirst
  rw [List.find?_append, hgates, Option.none_or, List.find?_map]
  show (outs.find? fun b => (b.pool t).peak?.isNone).map _ = _
  rw [hfirst]
  rfl

/-- **Shares and pools correspond.** The pools fail only as the plan does. A plan and its pools list
the same edges, each pool with its share as its peak. A plan that fails where the pools do not is
refused for the first pool without a ceiling. So a task can be planned iff every pool has a peak. -/
theorem plan_corresponds_to_pools (t : Tuning) (task : Task) :
    (∀ x, task.pools t = .error x → (task.plan .standing t).outcome = .error x) ∧
    (∀ p, (task.plan .standing t).outcome = .ok p → ∃ pools, task.pools t = .ok pools ∧
      pools.length = p.shares.length ∧
      ∀ (i : Nat) (hp : i < pools.length) (hs : i < p.shares.length),
        pools[i].edge = p.shares[i].edge ∧ pools[i].side = p.shares[i].side ∧
          pools[i].peak? = some p.shares[i].buffers) ∧
    (∀ x pools, (task.plan .standing t).outcome = .error x → task.pools t = .ok pools →
      ∃ pool kind, pools.find? (fun q => q.peak?.isNone) = some pool ∧ pool.side = .output ∧
        x = .unbounded (some pool.edge) kind) ∧
    ((∃ p, (task.plan .standing t).outcome = .ok p) ↔
      ∃ pools, task.pools t = .ok pools ∧ ∀ q ∈ pools, ∃ n, q.peak? = some n) := by
  refine ⟨fun x => plan_eq_error_of_pools, ?_, ?_, ?_⟩
  · intro p hp
    obtain ⟨pools, hpools, hmatch⟩ := forall₂_matches_of_plan hp
    refine ⟨pools, hpools, hmatch.length_eq, ?_⟩
    intro i hi hs
    obtain ⟨hedge, hside, hpeak⟩ := hmatch.get hi hs
    exact ⟨hedge, hside, hpeak⟩
  · intro x pools hx hpools
    exact find?_of_plan_eq_error hpools hx
  · constructor
    · rintro ⟨p, hp⟩
      obtain ⟨pools, hpools, hmatch⟩ := forall₂_matches_of_plan hp
      refine ⟨pools, hpools, ?_⟩
      intro q hq
      obtain ⟨i, hi, rfl⟩ := List.getElem_of_mem hq
      have hs : i < p.shares.length := hmatch.length_eq ▸ hi
      exact ⟨_, (hmatch.get hi hs).peak⟩
    · rintro ⟨pools, hpools, hall⟩
      apply exists_ok_iff.mpr
      intro x hx
      obtain ⟨pool, -, hfind, -⟩ := find?_of_plan_eq_error hpools hx
      obtain ⟨n, hn⟩ := hall pool (List.mem_of_find?_eq_some hfind)
      have hnone := List.find?_some hfind
      rw [hn] at hnone
      cases hnone

end Task

end BufferPlan
