import BufferPlan.Proofs.Pools

/-!
# What a policy and a tuning value cannot reach

A policy sizes gates and nothing else, and each tuning value is read for some edges only. Two runs
for one task that differ in the policy or in a tuning value are compared stage by stage: they join
the same edges, fail alike, and what they plan differs only on edges that read what was changed.

* `EndAlike`: two runs fail with the same error, or both give results, which are related.
* `Share.Keeps`, `Pool.Keeps`: of the same edge, and equal if the edge is kept.
* `Task.plan_keeps`, `Task.pools_keep`: two runs keep an edge if nothing that was changed is read
  for it.
* **`Task.sides_do_not_interfere`**: the policy, the values of sorted pools, the cap, and the values
  of channels.
-/

namespace BufferPlan

/-! ## Two runs -/

/-- The runs fail with the same error, or both give results that are related. -/
inductive EndAlike {ε α β : Type} (R : α → β → Prop) : Except ε α → Except ε β → Prop
  | error (x : ε) : EndAlike R (.error x) (.error x)
  | ok {a : α} {b : β} (h : R a b) : EndAlike R (.ok a) (.ok b)

namespace EndAlike

variable {ε α β α' β' : Type} {R : α → β → Prop} {S : α' → β' → Prop}

/-- One stage after another. -/
theorem bind {x : Except ε α} {y : Except ε β} {f : α → Except ε α'} {g : β → Except ε β'}
    (h : EndAlike R x y) (hfg : ∀ a b, R a b → EndAlike S (f a) (g b)) :
    EndAlike S (x >>= f) (y >>= g) := by
  cases h with
  | error x => exact .error x
  | ok h => exact hfg _ _ h

/-- A stage that both runs share. -/
theorem bind_self {x : Except ε α} {f : α → Except ε α'} {g : α → Except ε β'}
    (h : ∀ a, x = .ok a → EndAlike S (f a) (g a)) : EndAlike S (x >>= f) (x >>= g) := by
  cases x with
  | error x => exact .error x
  | ok a => exact h a rfl

/-- A stage that visits the same elements in both runs. -/
theorem mapM {l : List α'} {f : α' → Except ε α} {g : α' → Except ε β}
    (h : ∀ a ∈ l, EndAlike R (f a) (g a)) : EndAlike (List.Forall₂ R) (l.mapM f) (l.mapM g) := by
  induction l with
  | nil => exact .ok .nil
  | cons a l ih =>
    obtain ⟨ha, hl⟩ := List.forall_mem_cons.mp h
    rw [List.mapM_cons, List.mapM_cons]
    exact ha.bind fun b c hbc => (ih hl).bind fun bs cs hbcs => .ok (.cons hbc hbcs)

end EndAlike

/-! ## What two runs keep -/

/-- Shares of one edge, which announce the same if the edge is kept. -/
structure Share.Keeps (Kept : Side → EdgeId → Prop) (s s' : Share) : Prop where
  edge : s.edge = s'.edge
  side : s.side = s'.side
  kind : s.kind = s'.kind
  buffers : Kept s.side s.edge → s.buffers = s'.buffers

/-- Pools of one edge, which are equal if the edge is kept. -/
structure Pool.Keeps (Kept : Side → EdgeId → Prop) (q q' : Pool) : Prop where
  edge : q.edge = q'.edge
  side : q.side = q'.side
  eq : Kept q.side q.edge → q = q'

/-- Plans that list the same edges, with the same shares for those that are kept, and with the same
total for a side that is kept as a whole. -/
structure Plan.Keeps (Kept : Side → EdgeId → Prop) (p p' : Plan) : Prop where
  shares : List.Forall₂ (Share.Keeps Kept) p.shares p'.shares
  inputsTotal : (∀ i, Kept .input i) → p.inputsTotal = p'.inputsTotal
  outputsTotal : (∀ i, Kept .output i) → p.outputsTotal = p'.outputsTotal

variable {Kept : Side → EdgeId → Prop} {policy policy' : Gate.Policy} {t t' : Tuning} {task : Task}

namespace Plan

theorem sideSum_of_keeps {l l' : List Share} (h : List.Forall₂ (Share.Keeps Kept) l l')
    {side : Side} (hside : ∀ i, Kept side i) : sideSum side l = sideSum side l' := by
  induction h with
  | nil => rfl
  | @cons s s' l l' hs _ ih =>
    have hhead : sideSum side [s] = sideSum side [s'] := by
      rw [sideSum_singleton, sideSum_singleton, ← hs.side]
      by_cases hs' : s.side = side
      · rw [if_pos hs', if_pos hs', hs.buffers (hs' ▸ hside s.edge)]
      · rw [if_neg hs', if_neg hs']
    rw [← List.singleton_append, sideSum_append, hhead, ih, ← sideSum_append, List.singleton_append]

/-- Plans keep what their shares keep. -/
theorem keeps_ofShares {l l' : List Share} (h : List.Forall₂ (Share.Keeps Kept) l l') :
    (ofShares l).Keeps Kept (ofShares l') := by
  have hacc := accounts_ofShares l
  have hacc' := accounts_ofShares l'
  refine ⟨?_, fun hside => ?_, fun hside => ?_⟩
  · rwa [hacc.shares, hacc'.shares]
  · apply UInt64.toNat_inj.mp
    rw [hacc.inputs, hacc'.inputs, sideSum_of_keeps h hside]
  · apply UInt64.toNat_inj.mp
    rw [hacc.outputs, hacc'.outputs, sideSum_of_keeps h hside]

end Plan

/-- Whether an output is refused does not depend on the tuning values. -/
theorem OutputEdge.share_keeps {e : OutputEdge}
    (h : Kept .output e.id → e.announced? t = e.announced? t') :
    EndAlike (Share.Keeps Kept) (e.share t).outcome (e.share t').outcome := by
  have hnone : e.announced? t = none ↔ e.announced? t' = none :=
    Partition.announced?_eq_none_iff.trans Partition.announced?_eq_none_iff.symm
  rw [outcome_share, outcome_share]
  cases hn : e.announced? t with
  | none =>
    rw [hnone.mp hn]
    exact .error _
  | some n =>
    cases hn' : e.announced? t' with
    | none =>
      rw [hnone.mpr hn'] at hn
      cases hn
    | some n' =>
      refine .ok ⟨rfl, rfl, rfl, fun hkept => ?_⟩
      rw [hn, hn'] at h
      exact Option.some.inj (h hkept)

namespace Task

/-- **Two plans keep an edge for which nothing is read that was changed.** -/
theorem plan_keeps
    (hins : ∀ e, task.inputs.Holds e → Kept .input e.id →
      policy e.kind e.channels t = policy' e.kind e.channels t')
    (houts : ∀ e, task.outputs.Holds e → Kept .output e.id → e.announced? t = e.announced? t') :
    EndAlike (Plan.Keeps Kept) (task.plan policy t).outcome (task.plan policy' t').outcome := by
  rw [outcome_plan, outcome_plan]
  refine .bind_self fun ins hresolve => .bind_self fun outs hresolve' => ?_
  have hinputs : List.Forall₂ (Share.Keeps Kept) (ins.map (InputEdge.planned policy t))
      (ins.map (InputEdge.planned policy' t')) := by
    rw [List.forall₂_map_left_iff, List.forall₂_map_right_iff, List.forall₂_same]
    intro e he
    refine ⟨rfl, rfl, rfl, fun hkept => ?_⟩
    have hpolicy := hins e ((Inputs.mem_of_resolve hresolve).mp he) hkept
    exact congrArg (Saturating.mul · e.reuse.toUInt64) hpolicy
  have houtputs : EndAlike (List.Forall₂ (Share.Keeps Kept))
      (outs.mapM fun e => (e.share t).outcome) (outs.mapM fun e => (e.share t').outcome) :=
    .mapM fun e he => OutputEdge.share_keeps (houts e ((Outputs.mem_of_resolve hresolve').mp he))
  exact houtputs.bind fun _ _ hshares => .ok (Plan.keeps_ofShares (List.rel_append hinputs hshares))

/-- **Two layouts of the pools keep an edge for which nothing is read that was changed.** -/
theorem pools_keep
    (hins : ∀ e, task.inputs.Holds e → Kept .input e.id → e.pool t = e.pool t')
    (houts : ∀ e, task.outputs.Holds e → Kept .output e.id → e.pool t = e.pool t') :
    EndAlike (List.Forall₂ (Pool.Keeps Kept)) (task.pools t) (task.pools t') := by
  refine .bind_self fun ins hresolve => .bind_self fun outs hresolve' => .ok (List.rel_append ?_ ?_)
  · rw [List.forall₂_map_left_iff, List.forall₂_map_right_iff, List.forall₂_same]
    intro e he
    exact ⟨rfl, rfl, hins e ((Inputs.mem_of_resolve hresolve).mp he)⟩
  · rw [List.forall₂_map_left_iff, List.forall₂_map_right_iff, List.forall₂_same]
    intro e he
    exact ⟨rfl, rfl, houts e ((Outputs.mem_of_resolve hresolve').mp he)⟩

/-- Every output, and each input on whose gates two policies agree. -/
def AgreesAt (task : Task) (t : Tuning) (policy policy' : Gate.Policy) : Side → EdgeId → Prop
  | .input, i => ∀ k n, task.inputs.kinds.get? i = some k →
      task.inputs.channels.get? i = some n.val → policy k n t = policy' k n t
  | .output, _ => True

/-- The outputs of a blocking kind. -/
def BlockingAt (task : Task) : Side → EdgeId → Prop
  | .input, _ => False
  | .output, i => ∀ k, task.outputs.kinds.get? i = some k → k.isBlocking = true

end Task

/-! ## What is read for an edge -/

/-- The bounds of a blocking partition do not depend on what its consumers hold. -/
theorem Partition.bounds_of_isBlocking {kind : Kind} (h : kind.isBlocking = true) (n : Count)
    (t : Tuning) (perChannel floating : UInt32) :
    bounds kind n { t with buffersPerChannel := perChannel, floatingPerGate := floating } =
      bounds kind n t := by
  cases kind with
  | blocking | blockingPersistent => rfl
  | _ => cases h

namespace OutputEdge

variable {e : OutputEdge} (h : Partition.bounds e.kind e.subpartitions t =
  Partition.bounds e.kind e.subpartitions t')
include h

theorem announced?_congr : e.announced? t = e.announced? t' := by
  rw [announced?, announced?, h]

theorem pool_congr : e.pool t = e.pool t' := by
  unfold pool
  rw [h]

end OutputEdge

/-- **The two sides do not interfere.**

Two policies plan alike: both fail with the same error, or their plans list the same edges, and only
the share of an input can differ, on whose gates the policies do.

Of the tuning values, those of sorted pools reach no input under the standing policy, neither in the
plan nor in the pools. The cap reaches no output, and the values of channels reach no output of a
blocking kind. -/
theorem Task.sides_do_not_interfere (task : Task) (t : Tuning) :
    (∀ policy policy', EndAlike (Plan.Keeps (task.AgreesAt t policy policy'))
      (task.plan policy t).outcome (task.plan policy' t).outcome) ∧
    (∀ fanOut floor, let t' : Tuning := { t with sortFanOut := fanOut, sortFloor := floor }
      EndAlike (Plan.Keeps fun side _ => side = .input)
        (task.plan .standing t).outcome (task.plan .standing t').outcome ∧
      EndAlike (List.Forall₂ (Pool.Keeps fun side _ => side = .input))
        (task.pools t) (task.pools t')) ∧
    (∀ policy cap, let t' : Tuning := { t with gateCap := cap }
      EndAlike (Plan.Keeps fun side _ => side = .output)
        (task.plan policy t).outcome (task.plan policy t').outcome ∧
      EndAlike (List.Forall₂ (Pool.Keeps fun side _ => side = .output))
        (task.pools t) (task.pools t')) ∧
    (∀ policy perChannel floating,
      let t' : Tuning := { t with buffersPerChannel := perChannel, floatingPerGate := floating }
      EndAlike (Plan.Keeps task.BlockingAt)
        (task.plan policy t).outcome (task.plan policy t').outcome ∧
      EndAlike (List.Forall₂ (Pool.Keeps task.BlockingAt)) (task.pools t) (task.pools t')) := by
  refine ⟨fun policy policy' => ?_, fun fanOut floor => ⟨?_, ?_⟩, fun policy cap => ⟨?_, ?_⟩,
    fun policy perChannel floating => ?_⟩
  · exact plan_keeps (fun e he hagree => hagree _ _ he.kind he.counted) fun _ _ _ => rfl
  -- a side that is not kept is discharged by the side, and one that is by the values it reads
  · exact plan_keeps (fun _ _ _ => rfl) fun _ _ hside => nomatch hside
  · exact pools_keep (fun _ _ _ => rfl) fun _ _ hside => nomatch hside
  · exact plan_keeps (fun _ _ hside => nomatch hside) fun _ _ _ => rfl
  · exact pools_keep (fun _ _ hside => nomatch hside) fun _ _ _ => rfl
  · have hbounds : ∀ e, task.outputs.Holds e → task.BlockingAt .output e.id →
        Partition.bounds e.kind e.subpartitions t = Partition.bounds e.kind e.subpartitions
          { t with buffersPerChannel := perChannel, floatingPerGate := floating } :=
      fun e he hblocking =>
        (Partition.bounds_of_isBlocking (hblocking _ he.kind) _ t perChannel floating).symm
    exact ⟨plan_keeps (fun _ _ hside => nomatch hside)
        fun e he hside => OutputEdge.announced?_congr (hbounds e he hside),
      pools_keep (fun _ _ hside => nomatch hside)
        fun e he hside => OutputEdge.pool_congr (hbounds e he hside)⟩

end BufferPlan
