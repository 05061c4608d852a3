import BufferPlan.Proofs.Plan

/-!
# The totals of a plan are exact

A total passes through four kinds of clamp: each product of a requirement and a reuse count, each
addition of a share on either side, and the last addition of both sides. `plan_totals_exact` says
that none of them shows: every total is the exact natural number, held at the largest word.
-/

namespace BufferPlan

variable {policy : Gate.Policy} {t : Tuning} {task : Task}

/-- What the gates of an input edge require in all, as a natural number. -/
def InputEdge.demand (policy : Gate.Policy) (t : Tuning) (e : InputEdge) : Nat :=
  (policy e.kind e.channels t).toNat * e.reuse.toNat

theorem InputEdge.toNat_announced (e : InputEdge) :
    (e.announced policy t).toNat = min (e.demand policy t) Saturating.top := by
  unfold announced demand
  rw [Saturating.toNat_mul, UInt32.toNat_toUInt64]

namespace Plan

/-- The input side holds the demands, each clamped. -/
theorem sideSum_input {ins : List InputEdge} {shares : List Share}
    (h : ∀ s ∈ shares, s.side = .output) :
    sideSum .input (ins.map (InputEdge.planned policy t) ++ shares) =
      ((ins.map (InputEdge.demand policy t)).map (min · Saturating.top)).sum := by
  have hins : ∀ s ∈ ins.map (InputEdge.planned policy t), s.side = .input := by
    intro s hs
    obtain ⟨e, -, rfl⟩ := List.mem_map.mp hs
    rfl
  have hshares : ∀ s ∈ shares, s.side ≠ .input := by
    intro s hs
    rw [h s hs]
    decide
  rw [sideSum_append, sideSum_eq_sum hins, sideSum_eq_zero hshares, Nat.add_zero, List.map_map,
    List.map_map]
  apply congrArg List.sum
  apply List.map_congr_left
  intro e _
  exact e.toNat_announced

/-- The output side holds what the outputs announce. -/
theorem sideSum_output {ins : List InputEdge} {shares : List Share}
    (h : ∀ s ∈ shares, s.side = .output) :
    sideSum .output (ins.map (InputEdge.planned policy t) ++ shares) =
      ((shares.map Share.buffers).map UInt64.toNat).sum := by
  have hins : ∀ s ∈ ins.map (InputEdge.planned policy t), s.side ≠ .output := by
    intro s hs
    obtain ⟨e, -, rfl⟩ := List.mem_map.mp hs
    intro hside
    cases hside
  rw [sideSum_append, sideSum_eq_zero hins, sideSum_eq_sum h, Nat.zero_add, List.map_map]
  rfl

end Plan

namespace Task

/-- **The totals are exact.** A task that is planned gets the totals that its edges give in exact
arithmetic, held at the largest word. -/
theorem plan_totals_exact {p : Plan} (h : (task.plan policy t).outcome = .ok p) :
    ∃ ins outs announced, task.inputs.resolve = .ok ins ∧ task.outputs.resolve = .ok outs ∧
      (outs.mapM fun e => (e.announce t).outcome) = .ok announced ∧
      p.inputsTotal.toNat = min (2 ^ 64 - 1) (ins.map (InputEdge.demand policy t)).sum ∧
      p.outputsTotal.toNat = min (2 ^ 64 - 1) (announced.map UInt64.toNat).sum ∧
      p.total.toNat = min (2 ^ 64 - 1)
        ((ins.map (InputEdge.demand policy t)).sum + (announced.map UInt64.toNat).sum) ∧
      (task.announcement policy t).outcome = .ok p.total := by
  obtain ⟨ins, outs, shares, hins, houts, hshares, rfl⟩ := plan_eq_ok_iff.mp h
  have hside : ∀ s ∈ shares, s.side = .output := by
    intro s hs
    exact OutputEdge.side_of_mapM_share hshares hs
  have hacc := Plan.accounts_ofShares (ins.map (InputEdge.planned policy t) ++ shares)
  have hi := hacc.inputs
  have ho := hacc.outputs
  have ht := hacc.total
  rw [Plan.sideSum_input hside] at hi ht
  rw [Plan.sideSum_output hside] at ho ht
  -- the demands are clamped one by one, and the clamp of the sum absorbs that
  have habsorb := Saturating.min_sum_map_min (ins.map (InputEdge.demand policy t))
  rw [Saturating.top_eq] at *
  refine ⟨ins, outs, shares.map Share.buffers, hins, houts,
    OutputEdge.mapM_announce_of_mapM_share hshares, ?_, ?_, ?_, ?_⟩
  · rw [hi, habsorb, Nat.min_comm]
  · rw [ho, Nat.min_comm]
  · omega
  · rw [announcement, Traced.outcome_map, h]
    rfl

end Task

/-- The largest gate, four times, and the largest result partition. -/
def Task.oversized : Task where
  inputs := Inputs.insert {} ⟨1⟩ .pipelinedBounded 4294967295 4
  outputs := Outputs.insert {} ⟨2⟩ .pipelinedBounded 4294967295

/-- The largest buffer counts. -/
def Tuning.widest : Tuning := { buffersPerChannel := 4294967295, floatingPerGate := 4294967295 }

/-- The inputs of the oversized task alone are past the largest word, and its total is held there. -/
theorem Task.plan_totals_exact_oversized :
    ∃ p ins outs announced, (oversized.plan .standing Tuning.widest).outcome = .ok p ∧
      oversized.inputs.resolve = .ok ins ∧ oversized.outputs.resolve = .ok outs ∧
      (outs.mapM fun e => (e.announce Tuning.widest).outcome) = .ok announced ∧
      p.inputsTotal = 18446744073709551615 ∧ p.outputsTotal = 18446744069414584320 ∧
      p.total.toNat = min (2 ^ 64 - 1)
        ((ins.map (InputEdge.demand .standing Tuning.widest)).sum +
          (announced.map UInt64.toNat).sum) := by
  have h : (oversized.plan .standing Tuning.widest).outcome = .ok
      ⟨[⟨⟨1⟩, .input, .pipelinedBounded, 18446744073709551615⟩,
        ⟨⟨2⟩, .output, .pipelinedBounded, 18446744069414584320⟩],
        18446744073709551615, 18446744069414584320⟩ := by rfl
  obtain ⟨ins, outs, announced, hins, houts, hann, -, -, ht, -⟩ := plan_totals_exact h
  exact ⟨_, ins, outs, announced, h, hins, houts, hann, rfl, rfl, ht⟩

end BufferPlan
