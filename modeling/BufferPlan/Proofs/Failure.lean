import BufferPlan.Proofs.Plan
import BufferPlan.Proofs.Resolve

/-!
# Which tasks cannot be planned, and why

The planner stops at the first thing that is wrong. What is wrong can be told from the maps of the
task alone, without a policy and without tuning values: a counted id can lack data on either side,
and a counted output can have a live kind without a ceiling. Input kinds are never refused.

* `Task.exists_plan_iff`: when a task can be planned.
* `Task.plan_eq_error_iff_fails`: the one error of a task that cannot (`Task.Fails`). Faults of inputs
  come before faults of outputs, and these before pools without a ceiling; within each, the
  smallest id comes first.
-/

namespace BufferPlan

variable {policy : Gate.Policy} {t : Tuning} {task : Task}

/-- A counted output id with a live kind that has no ceiling. -/
structure Outputs.Unbounded (s : Outputs) (i : EdgeId) (k : Kind) : Prop where
  counted : ∃ n, s.subpartitions.get? i = some n
  kind : s.kinds.get? i = some k
  refused : k = .pipelined ∨ k = .pipelinedApproximate

/-- **Why a task cannot be planned.** A later cause is given only where no earlier one exists, and
each names the smallest id it holds of. -/
inductive Task.Fails (task : Task) : PlanError → Prop
  | input {i : EdgeId} {f : EdgeFault} (fault : task.inputs.Faulty i f)
      (first : ∀ j, j < i → ∀ g, ¬ task.inputs.Faulty j g) : Fails task (.badEdge i f)
  | output {i : EdgeId} {f : EdgeFault} (inputs : task.inputs.Complete)
      (fault : task.outputs.Faulty i f)
      (first : ∀ j, j < i → ∀ g, ¬ task.outputs.Faulty j g) : Fails task (.badEdge i f)
  | unbounded {i : EdgeId} {k : Kind} (inputs : task.inputs.Complete)
      (outputs : task.outputs.Complete) (refused : task.outputs.Unbounded i k)
      (first : ∀ j, j < i → ∀ l, ¬ task.outputs.Unbounded j l) :
      Fails task (.unbounded (some i) k)

namespace Outputs

variable {s : Outputs} {outs : List OutputEdge} (h : s.resolve = .ok outs)
include h

/-- The outputs that are refused a share are the unbounded ids. -/
theorem unbounded_iff {i : EdgeId} {k : Kind} :
    s.Unbounded i k ↔
      ∃ e ∈ outs, e.id = i ∧ e.kind = k ∧
        (e.kind = .pipelined ∨ e.kind = .pipelinedApproximate) := by
  constructor
  · rintro ⟨⟨n, hn⟩, hk, hlive⟩
    obtain ⟨e, he, rfl⟩ := EdgeMap.exists_mem_of_map_eq (ids_of_resolve h) hn
    have hkind : e.kind = k := Option.some.inj (((mem_of_resolve h).mp he).kind.symm.trans hk)
    exact ⟨e, he, rfl, hkind, hkind ▸ hlive⟩
  · rintro ⟨e, he, rfl, rfl, hlive⟩
    obtain ⟨hn, hk⟩ := (mem_of_resolve h).mp he
    exact ⟨⟨_, hn⟩, hk, hlive⟩

theorem exists_mapM_share_iff :
    (∃ shares, (outs.mapM fun e => (e.share t).outcome) = .ok shares) ↔
      ∀ i k, ¬ s.Unbounded i k := by
  rw [exists_mapM_eq_ok_iff]
  constructor
  · intro hall i k hu
    obtain ⟨e, he, rfl, rfl, hlive⟩ := (unbounded_iff h).mp hu
    exact exists_ok_iff.mp (hall e he) _ (OutputEdge.share_eq_error_iff.mpr ⟨hlive, rfl⟩)
  · intro hnone e he
    apply exists_ok_iff.mpr
    intro x hx
    obtain ⟨hlive, -⟩ := OutputEdge.share_eq_error_iff.mp hx
    exact hnone e.id e.kind ((unbounded_iff h).mpr ⟨e, he, rfl, rfl, hlive⟩)

/-- The share that is refused first is that of the smallest unbounded id. -/
theorem mapM_share_eq_error_iff {x : PlanError} :
    (outs.mapM fun e => (e.share t).outcome) = .error x ↔
      ∃ i k, s.Unbounded i k ∧ (∀ j, j < i → ∀ l, ¬ s.Unbounded j l) ∧
        x = .unbounded (some i) k := by
  rw [mapM_eq_error_iff (ascending_of_resolve h)]
  constructor
  · rintro ⟨e, he, hx, hbelow⟩
    obtain ⟨hlive, rfl⟩ := OutputEdge.share_eq_error_iff.mp hx
    refine ⟨e.id, e.kind, (unbounded_iff h).mpr ⟨e, he, rfl, rfl, hlive⟩, ?_, rfl⟩
    intro j hj l hu
    obtain ⟨b, hb, rfl, -, hlive'⟩ := (unbounded_iff h).mp hu
    exact hbelow b hb hj _ (OutputEdge.share_eq_error_iff.mpr ⟨hlive', rfl⟩)
  · rintro ⟨i, k, hu, hfirst, rfl⟩
    obtain ⟨e, he, rfl, rfl, hlive⟩ := (unbounded_iff h).mp hu
    refine ⟨e, he, OutputEdge.share_eq_error_iff.mpr ⟨hlive, rfl⟩, ?_⟩
    intro b hb hlt x hx
    obtain ⟨hlive', -⟩ := OutputEdge.share_eq_error_iff.mp hx
    exact hfirst b.id hlt b.kind ((unbounded_iff h).mpr ⟨b, hb, rfl, rfl, hlive'⟩)

end Outputs

namespace Task

/-- **When a task can be planned.** Neither the policy nor the tuning values matter. -/
theorem exists_plan_iff :
    (∃ p, (task.plan policy t).outcome = .ok p) ↔
      task.inputs.Complete ∧ task.outputs.Complete ∧ ∀ i k, ¬ task.outputs.Unbounded i k := by
  rw [← Inputs.exists_resolve_iff, ← Outputs.exists_resolve_iff]
  constructor
  · rintro ⟨p, hp⟩
    obtain ⟨ins, outs, shares, hins, houts, hshares, -⟩ := plan_eq_ok_iff.mp hp
    exact ⟨⟨ins, hins⟩, ⟨outs, houts⟩, (Outputs.exists_mapM_share_iff houts).mp ⟨shares, hshares⟩⟩
  · rintro ⟨⟨ins, hins⟩, ⟨outs, houts⟩, hnone⟩
    obtain ⟨shares, hshares⟩ := (Outputs.exists_mapM_share_iff (t := t) houts).mpr hnone
    exact ⟨_, plan_eq_ok_iff.mpr ⟨ins, outs, shares, hins, houts, hshares, rfl⟩⟩

/-- **The error of a task that cannot be planned.** -/
theorem plan_eq_error_iff_fails {x : PlanError} :
    (task.plan policy t).outcome = .error x ↔ task.Fails x := by
  rw [plan_eq_error_iff, Inputs.resolve_eq_error_iff]
  constructor
  · rintro (⟨i, f, hf, hfirst, rfl⟩ | ⟨ins, hins, hrest⟩)
    · exact .input hf hfirst
    have hcomplete := Inputs.exists_resolve_iff.mp ⟨ins, hins⟩
    rcases hrest with hout | ⟨outs, houts, hshares⟩
    · obtain ⟨i, f, hf, hfirst, rfl⟩ := Outputs.resolve_eq_error_iff.mp hout
      exact .output hcomplete hf hfirst
    · obtain ⟨i, k, hu, hfirst, rfl⟩ := (Outputs.mapM_share_eq_error_iff houts).mp hshares
      exact .unbounded hcomplete (Outputs.exists_resolve_iff.mp ⟨outs, houts⟩) hu hfirst
  · intro hfails
    cases hfails with
    | input hf hfirst => exact Or.inl ⟨_, _, hf, hfirst, rfl⟩
    | output hcomplete hf hfirst =>
      obtain ⟨ins, hins⟩ := Inputs.exists_resolve_iff.mpr hcomplete
      exact Or.inr ⟨ins, hins, Or.inl (Outputs.resolve_eq_error_iff.mpr ⟨_, _, hf, hfirst, rfl⟩)⟩
    | unbounded hcomplete houtputs hu hfirst =>
      obtain ⟨ins, hins⟩ := Inputs.exists_resolve_iff.mpr hcomplete
      obtain ⟨outs, houts⟩ := Outputs.exists_resolve_iff.mpr houtputs
      exact Or.inr ⟨ins, hins, Or.inr ⟨outs, houts,
        (Outputs.mapM_share_eq_error_iff houts).mpr ⟨_, _, hu, hfirst, rfl⟩⟩⟩

/-- **Planning fails exactly on faulty maps.** A task is planned iff its maps are complete and no
counted output is unbounded; else the error is the first cause and names an id at fault. Neither the
policy nor the tuning values decide whether a task fails or with which error. -/
theorem plan_fails_iff_maps_at_fault (policy : Gate.Policy) (t : Tuning) (task : Task) :
    ((∃ p, (task.plan policy t).outcome = .ok p) ↔
      task.inputs.Complete ∧ task.outputs.Complete ∧ ∀ i k, ¬ task.outputs.Unbounded i k) ∧
    (∀ x, (task.plan policy t).outcome = .error x ↔ task.Fails x) ∧
    (∀ x, (task.plan policy t).outcome = .error x → ∃ i, x.edge? = some i ∧
      ((∃ f, task.inputs.Faulty i f) ∨ (∃ f, task.outputs.Faulty i f) ∨
        ∃ k, task.outputs.Unbounded i k)) ∧
    ∀ policy' t', ((∃ p, (task.plan policy t).outcome = .ok p) ↔
        ∃ p, (task.plan policy' t').outcome = .ok p) ∧
      ∀ x, (task.plan policy t).outcome = .error x ↔
        (task.plan policy' t').outcome = .error x := by
  refine ⟨exists_plan_iff, fun x => plan_eq_error_iff_fails, ?_, ?_⟩
  · intro x hx
    cases plan_eq_error_iff_fails.mp hx with
    | input hf => exact ⟨_, rfl, Or.inl ⟨_, hf⟩⟩
    | output _ hf => exact ⟨_, rfl, Or.inr (Or.inl ⟨_, hf⟩)⟩
    | unbounded _ _ hu => exact ⟨_, rfl, Or.inr (Or.inr ⟨_, hu⟩)⟩
  · intro policy' t'
    refine ⟨exists_plan_iff.trans exists_plan_iff.symm, fun x => ?_⟩
    exact plan_eq_error_iff_fails.trans plan_eq_error_iff_fails.symm

/-- A zero fan-out is found before a pool without a ceiling, even one of a smaller id. -/
example : (Task.plan .standing {} ⟨{}, (Outputs.insert {} ⟨1⟩ .pipelined 1).insert ⟨2⟩
    .blocking 0⟩).outcome = .error (.badEdge ⟨2⟩ .noSubpartitions) := rfl

end Task

end BufferPlan
