import BufferPlan.Proofs.Alike
import BufferPlan.Proofs.Shares

/-!
# Tasks without a common edge

Two tasks that share no id on the same side can be planned apart or together. The plan of their
union is the two plans put together: every edge keeps its share, the sides are merged in the order
of ids, and the totals are the saturating sums. The union fails iff one of the tasks fails, and with
an error of one of them, although the causes of both are looked for in one order.

* `Inputs.alike_union`, `Outputs.alike_union`: of an id the union knows what one of the parts knows.
* `Task.gives_union_iff`: the union gives the shares of both tasks.
* `Task.fails_of_fails_union`: a cause of the union is the cause of one task.
* `Task.sideShares_union`, `Task.totals_union`: the sides are merged, and the totals added.
* `Task.plan_union`: the plan of the union.
-/

namespace BufferPlan

variable {policy : Gate.Policy} {t : Tuning} {i : EdgeId}

/-! ## Unions -/

namespace Inputs

/-- The union of the maps. -/
def union (a b : Inputs) : Inputs where
  channels := a.channels.union b.channels
  reuse := a.reuse.union b.reuse
  kinds := a.kinds.union b.kinds

/-- No id occurs in maps of both. -/
def Disjoint (a b : Inputs) : Prop := ∀ i, a.Uses i → ¬ b.Uses i

variable {a b : Inputs} {f : EdgeFault} {e : InputEdge}

theorem alike_union_of_not_uses_right (h : ¬ b.Uses i) : a.Alike i (a.union b) i := by
  simp only [Uses, not_or, not_exists, ← Option.eq_none_iff_forall_ne_some] at h
  obtain ⟨hchannels, hreuse, hkinds⟩ := h
  constructor
  · rw [union, EdgeMap.get?_union, hchannels, Option.none_or]
  · rw [union, EdgeMap.get?_union, hreuse, Option.none_or]
  · rw [union, EdgeMap.get?_union, hkinds, Option.none_or]

theorem alike_union_of_not_uses_left (h : ¬ a.Uses i) : b.Alike i (a.union b) i := by
  simp only [Uses, not_or, not_exists, ← Option.eq_none_iff_forall_ne_some] at h
  obtain ⟨hchannels, hreuse, hkinds⟩ := h
  constructor
  · rw [union, EdgeMap.get?_union, hchannels, Option.or_none]
  · rw [union, EdgeMap.get?_union, hreuse, Option.or_none]
  · rw [union, EdgeMap.get?_union, hkinds, Option.or_none]

/-- Of an id the union knows what one of the parts knows. -/
theorem alike_union (h : a.Disjoint b) (i : EdgeId) :
    (a.union b).Alike i a i ∨ (a.union b).Alike i b i := by
  by_cases ha : a.Uses i
  · exact Or.inl (alike_union_of_not_uses_right (h i ha)).symm
  · exact Or.inr (alike_union_of_not_uses_left ha).symm

theorem faulty_union_iff (h : a.Disjoint b) :
    (a.union b).Faulty i f ↔ a.Faulty i f ∨ b.Faulty i f := by
  constructor
  · intro hf
    exact (alike_union h i).imp (fun ha => ha.faulty hf) fun hb => hb.faulty hf
  · rintro (hf | hf)
    · exact (alike_union_of_not_uses_right (h i hf.uses)).faulty hf
    · exact (alike_union_of_not_uses_left fun ha => h i ha hf.uses).faulty hf

theorem complete_union_iff (h : a.Disjoint b) : (a.union b).Complete ↔ a.Complete ∧ b.Complete := by
  simp only [complete_iff_not_faulty, faulty_union_iff h, not_or, forall_and]

end Inputs

namespace Outputs

/-- The union of the maps. -/
def union (a b : Outputs) : Outputs where
  subpartitions := a.subpartitions.union b.subpartitions
  kinds := a.kinds.union b.kinds

/-- No id occurs in maps of both. -/
def Disjoint (a b : Outputs) : Prop := ∀ i, a.Uses i → ¬ b.Uses i

variable {a b : Outputs} {f : EdgeFault} {k : Kind} {e : OutputEdge}

theorem alike_union_of_not_uses_right (h : ¬ b.Uses i) : a.Alike i (a.union b) i := by
  simp only [Uses, not_or, not_exists, ← Option.eq_none_iff_forall_ne_some] at h
  obtain ⟨hsubpartitions, hkinds⟩ := h
  constructor
  · rw [union, EdgeMap.get?_union, hsubpartitions, Option.none_or]
  · rw [union, EdgeMap.get?_union, hkinds, Option.none_or]

theorem alike_union_of_not_uses_left (h : ¬ a.Uses i) : b.Alike i (a.union b) i := by
  simp only [Uses, not_or, not_exists, ← Option.eq_none_iff_forall_ne_some] at h
  obtain ⟨hsubpartitions, hkinds⟩ := h
  constructor
  · rw [union, EdgeMap.get?_union, hsubpartitions, Option.or_none]
  · rw [union, EdgeMap.get?_union, hkinds, Option.or_none]

/-- Of an id the union knows what one of the parts knows. -/
theorem alike_union (h : a.Disjoint b) (i : EdgeId) :
    (a.union b).Alike i a i ∨ (a.union b).Alike i b i := by
  by_cases ha : a.Uses i
  · exact Or.inl (alike_union_of_not_uses_right (h i ha)).symm
  · exact Or.inr (alike_union_of_not_uses_left ha).symm

theorem faulty_union_iff (h : a.Disjoint b) :
    (a.union b).Faulty i f ↔ a.Faulty i f ∨ b.Faulty i f := by
  constructor
  · intro hf
    exact (alike_union h i).imp (fun ha => ha.faulty hf) fun hb => hb.faulty hf
  · rintro (hf | hf)
    · exact (alike_union_of_not_uses_right (h i hf.uses)).faulty hf
    · exact (alike_union_of_not_uses_left fun ha => h i ha hf.uses).faulty hf

theorem complete_union_iff (h : a.Disjoint b) : (a.union b).Complete ↔ a.Complete ∧ b.Complete := by
  simp only [complete_iff_not_faulty, faulty_union_iff h, not_or, forall_and]

theorem unbounded_union_iff (h : a.Disjoint b) :
    (a.union b).Unbounded i k ↔ a.Unbounded i k ∨ b.Unbounded i k := by
  constructor
  · intro hu
    exact (alike_union h i).imp (fun ha => ha.unbounded hu) fun hb => hb.unbounded hu
  · rintro (hu | hu)
    · exact (alike_union_of_not_uses_right (h i hu.uses)).unbounded hu
    · exact (alike_union_of_not_uses_left fun ha => h i ha hu.uses).unbounded hu

end Outputs

/-! ## Plans of unions -/

namespace Task

/-- The union of both sides. -/
def union (a b : Task) : Task := ⟨a.inputs.union b.inputs, a.outputs.union b.outputs⟩

/-- No id occurs on the same side of both. It may occur on opposite sides. -/
structure Disjoint (a b : Task) : Prop where
  inputs : a.inputs.Disjoint b.inputs
  outputs : a.outputs.Disjoint b.outputs

section

variable {a b : Task} (h : a.Disjoint b)
include h

/-- What one of the tasks uses, the union knows as that task does. -/
theorem agreeAt_union_of_uses {side : Side} :
    (a.Uses side i → a.AgreeAt (a.union b) side i) ∧
      (b.Uses side i → b.AgreeAt (a.union b) side i) := by
  cases side with
  | input => exact ⟨fun ha => Inputs.alike_union_of_not_uses_right (h.inputs i ha),
      fun hb => Inputs.alike_union_of_not_uses_left fun ha => h.inputs i ha hb⟩
  | output => exact ⟨fun ha => Outputs.alike_union_of_not_uses_right (h.outputs i ha),
      fun hb => Outputs.alike_union_of_not_uses_left fun ha => h.outputs i ha hb⟩

theorem agreeAt_union (side : Side) (i : EdgeId) :
    (a.union b).AgreeAt a side i ∨ (a.union b).AgreeAt b side i := by
  cases side with
  | input => exact Inputs.alike_union h.inputs i
  | output => exact Outputs.alike_union h.outputs i

/-- The union gives the shares of both tasks. -/
theorem gives_union_iff {s : Share} :
    (a.union b).Gives policy t s ↔ a.Gives policy t s ∨ b.Gives policy t s := by
  constructor
  · intro hs
    exact (agreeAt_union h _ _).imp (fun ha => ha.gives hs) fun hb => hb.gives hs
  · rintro (hs | hs)
    · exact ((agreeAt_union_of_uses h).1 hs.uses).gives hs
    · exact ((agreeAt_union_of_uses h).2 hs.uses).gives hs

theorem atFault_union_iff {side : Side} :
    (a.union b).AtFault side i ↔ a.AtFault side i ∨ b.AtFault side i := by
  constructor
  · intro hi
    exact (agreeAt_union h side i).imp (fun ha => ha.atFault hi) fun hb => hb.atFault hi
  · rintro (hi | hi)
    · exact ((agreeAt_union_of_uses h).1 hi.uses).atFault hi
    · exact ((agreeAt_union_of_uses h).2 hi.uses).atFault hi

/-- The union can be planned iff both tasks can. -/
theorem exists_plan_union_iff :
    (∃ u, ((a.union b).plan policy t).outcome = .ok u) ↔
      (∃ p, (a.plan policy t).outcome = .ok p) ∧ ∃ q, (b.plan policy t).outcome = .ok q := by
  simp only [exists_plan_iff_not_atFault, atFault_union_iff h, not_or, forall_and]

/-- **A cause for which the union fails is the cause for which one of the tasks fails.** A cause
that comes first in the union comes first in the task that it is found in. -/
theorem fails_of_fails_union {x : PlanError} (hx : (a.union b).Fails x) :
    a.Fails x ∨ b.Fails x := by
  cases hx with
  | input hf hfirst =>
    simp only [union, Inputs.faulty_union_iff h.inputs, not_or] at hf hfirst
    rcases hf with hf | hf
    · exact Or.inl (.input hf fun j hj g => (hfirst j hj g).1)
    · exact Or.inr (.input hf fun j hj g => (hfirst j hj g).2)
  | output hins hf hfirst =>
    obtain ⟨hia, hib⟩ := (Inputs.complete_union_iff h.inputs).mp hins
    simp only [union, Outputs.faulty_union_iff h.outputs, not_or] at hf hfirst
    rcases hf with hf | hf
    · exact Or.inl (.output hia hf fun j hj g => (hfirst j hj g).1)
    · exact Or.inr (.output hib hf fun j hj g => (hfirst j hj g).2)
  | unbounded hins houts hu hfirst =>
    obtain ⟨hia, hib⟩ := (Inputs.complete_union_iff h.inputs).mp hins
    obtain ⟨hoa, hob⟩ := (Outputs.complete_union_iff h.outputs).mp houts
    simp only [union, Outputs.unbounded_union_iff h.outputs, not_or] at hu hfirst
    rcases hu with hu | hu
    · exact Or.inl (.unbounded hia hoa hu fun j hj l => (hfirst j hj l).1)
    · exact Or.inr (.unbounded hib hob hu fun j hj l => (hfirst j hj l).2)

theorem not_uses_of_uses {side : Side} (hi : a.Uses side i) : ¬ b.Uses side i := by
  cases side with
  | input => exact h.inputs i hi
  | output => exact h.outputs i hi

section

variable {p q u : Plan} (hp : (a.plan policy t).outcome = .ok p)
  (hq : (b.plan policy t).outcome = .ok q) (hu : ((a.union b).plan policy t).outcome = .ok u)
include hp hq hu

/-- **Each side of the union is the merge of both sides.** -/
theorem sideShares_union (side : Side) :
    u.sideShares side =
      (p.sideShares side).merge (q.sideShares side) fun r s => r.edge ≤ s.edge := by
  apply eq_of_ascending (ascending_sideShares hu side)
  · apply ascending_merge (ascending_sideShares hp side) (ascending_sideShares hq side)
    intro r hr s hs heq
    obtain ⟨hr, hrside⟩ := (mem_sideShares_iff_gives hp).mp hr
    obtain ⟨hs, hsside⟩ := (mem_sideShares_iff_gives hq).mp hs
    apply not_uses_of_uses h hr.uses
    rw [heq, hrside, ← hsside]
    exact hs.uses
  · intro s
    rw [List.mem_merge, mem_sideShares_iff_gives hu, mem_sideShares_iff_gives hp,
      mem_sideShares_iff_gives hq, gives_union_iff h, or_and_right]

/-- Each side of the union announces, in exact arithmetic, what both tasks announce. -/
theorem sideSum_union (side : Side) :
    Plan.sideSum side u.shares = Plan.sideSum side p.shares + Plan.sideSum side q.shares := by
  show ((u.sideShares side).map _).sum =
    ((p.sideShares side).map _).sum + ((q.sideShares side).map _).sum
  rw [sideShares_union h hp hq hu, ((List.merge_perm_append _).map _).sum_eq, List.map_append,
    List.sum_append]

/-- **The totals of the union are the saturating sums.** -/
theorem totals_union :
    u.inputsTotal = Saturating.add p.inputsTotal q.inputsTotal ∧
      u.outputsTotal = Saturating.add p.outputsTotal q.outputsTotal ∧
      u.total = Saturating.add p.total q.total := by
  have hp' := accounts_shares hp
  have hq' := accounts_shares hq
  have hu' := accounts_shares hu
  have hsum := sideSum_union h hp hq hu
  refine ⟨?_, ?_, ?_⟩ <;> apply UInt64.toNat_inj.mp <;> rw [Saturating.toNat_add]
  · rw [hu'.inputs, hp'.inputs, hq'.inputs, hsum, Saturating.min_min_add_min]
  · rw [hu'.outputs, hp'.outputs, hq'.outputs, hsum, Saturating.min_min_add_min]
  · rw [hu'.total, hp'.total, hq'.total, hsum, hsum, Saturating.min_min_add_min]
    congr 1
    omega

end

/-- **Tasks without a common edge are planned as if apart.** Their union can be planned iff both
can; then its totals are the saturating sums and each side lists the merge of both sides. An error
of the union is an error of one of them. -/
theorem plan_union (policy : Gate.Policy) (t : Tuning) :
    ((∃ u, ((a.union b).plan policy t).outcome = .ok u) ↔
      (∃ p, (a.plan policy t).outcome = .ok p) ∧ ∃ q, (b.plan policy t).outcome = .ok q) ∧
    (∀ p q u, (a.plan policy t).outcome = .ok p → (b.plan policy t).outcome = .ok q →
      ((a.union b).plan policy t).outcome = .ok u →
      u.inputsTotal = Saturating.add p.inputsTotal q.inputsTotal ∧
      u.outputsTotal = Saturating.add p.outputsTotal q.outputsTotal ∧
      u.total = Saturating.add p.total q.total ∧
      u.shares = u.sideShares .input ++ u.sideShares .output ∧
      ∀ side, u.sideShares side =
        (p.sideShares side).merge (q.sideShares side) fun r s => r.edge ≤ s.edge) ∧
    ∀ x, ((a.union b).plan policy t).outcome = .error x →
      (a.plan policy t).outcome = .error x ∨ (b.plan policy t).outcome = .error x := by
  refine ⟨exists_plan_union_iff h, fun p q u hp hq hu => ?_, fun x hx => ?_⟩
  · obtain ⟨hin, hout, htotal⟩ := totals_union h hp hq hu
    exact ⟨hin, hout, htotal, shares_eq_append hu, sideShares_union h hp hq hu⟩
  · rw [plan_eq_error_iff_fails] at hx ⊢
    rw [plan_eq_error_iff_fails]
    exact fails_of_fails_union h hx

end

/-- A task from edge 1 to edge 2. -/
def forth : Task where
  inputs := Inputs.insert {} ⟨1⟩ .blocking 4 1
  outputs := Outputs.insert {} ⟨2⟩ .pipelinedBounded 5

/-- A task from edge 2 to edge 1. -/
def back : Task where
  inputs := Inputs.insert {} ⟨2⟩ .pipelinedBounded 3 2
  outputs := Outputs.insert {} ⟨1⟩ .blocking 6

/-- Both ids occur in both tasks, but on opposite sides. -/
theorem plan_union_forth_back :
    forth.Disjoint back ∧
    ∃ p q u, (forth.plan .standing {}).outcome = .ok p ∧ (back.plan .standing {}).outcome = .ok q ∧
      ((forth.union back).plan .standing {}).outcome = .ok u ∧
      p.total = 34 ∧ q.total = 540 ∧ u.total = 574 ∧ u.total = Saturating.add p.total q.total ∧
      u.sideShares .output =
        (p.sideShares .output).merge (q.sideShares .output) fun r s => r.edge ≤ s.edge := by
  have h : forth.Disjoint back := by
    constructor
    · intro i hi
      have hid : i = ⟨1⟩ := by simpa [forth, Inputs.Uses, Inputs.insert] using hi
      simp [hid, back, Inputs.Uses, Inputs.insert]
    · intro i hi
      have hid : i = ⟨2⟩ := by simpa [forth, Outputs.Uses, Outputs.insert] using hi
      simp [hid, back, Outputs.Uses, Outputs.insert]
  have hp : (forth.plan .standing {}).outcome = .ok
      ⟨[⟨⟨1⟩, .input, .blocking, 16⟩, ⟨⟨2⟩, .output, .pipelinedBounded, 18⟩], 16, 18⟩ := rfl
  have hq : (back.plan .standing {}).outcome = .ok
      ⟨[⟨⟨2⟩, .input, .pipelinedBounded, 28⟩, ⟨⟨1⟩, .output, .blocking, 512⟩], 28, 512⟩ := rfl
  have hu : ((forth.union back).plan .standing {}).outcome = .ok
      ⟨[⟨⟨1⟩, .input, .blocking, 16⟩, ⟨⟨2⟩, .input, .pipelinedBounded, 28⟩,
        ⟨⟨1⟩, .output, .blocking, 512⟩, ⟨⟨2⟩, .output, .pipelinedBounded, 18⟩], 44, 530⟩ := rfl
  obtain ⟨-, htotals, -⟩ := plan_union h .standing {}
  obtain ⟨-, -, htotal, -, hsides⟩ := htotals _ _ _ hp hq hu
  exact ⟨h, _, _, _, hp, hq, hu, rfl, rfl, rfl, htotal, hsides .output⟩

end Task

end BufferPlan
