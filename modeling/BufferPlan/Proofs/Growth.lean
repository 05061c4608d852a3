import BufferPlan.Proofs.Monotone
import BufferPlan.Proofs.Shares

/-!
# A larger task announces no less

A task grows if its channel counts, its reuse counts and the fan-outs of its bounded outputs do.
The fan-outs of blocking outputs stay, since a pool that becomes a sorted one is sized anew and can
be smaller. A task that has grown can be planned if it could be before, also under larger tuning
values, and none of its edges announces less.

The two plans are compared share by share: both list the counted ids in order, and what an edge
announces follows from what the maps hold at its id.

* `Task.Below`: the task has not shrunk.
* `Task.Below.exists_plan`: it can still be planned.
* `Task.Below.share_below`, `Task.Below.totals_mono`: no share and no total is smaller.
* **`Task.plan_mono`**: all of it, for the plans of both tasks.
-/

namespace BufferPlan

/-! ## What it is to grow -/

/-- The maps have the same ids, and no count of the first is larger. -/
structure EdgeMap.Below (m m' : EdgeMap UInt32) : Prop where
  ids : ∀ i, (∃ n, m.get? i = some n) ↔ ∃ n, m'.get? i = some n
  le : ∀ i n n', m.get? i = some n → m'.get? i = some n' → n ≤ n'

/-- The maps have the same ids and kinds, and no count of the first is larger. -/
structure Inputs.Below (s s' : Inputs) : Prop where
  channels : s.channels.Below s'.channels
  reuse : s.reuse.Below s'.reuse
  kinds : s.kinds = s'.kinds

/-- The maps have the same ids and kinds, no fan-out of a bounded output of the first is larger, and
those of blocking outputs are the same. -/
structure Outputs.Below (s s' : Outputs) : Prop where
  ids : ∀ i, (∃ n, s.subpartitions.get? i = some n) ↔ ∃ n, s'.subpartitions.get? i = some n
  bounded : ∀ i n n', s.kinds.get? i = some .pipelinedBounded →
    s.subpartitions.get? i = some n → s'.subpartitions.get? i = some n' → n ≤ n'
  blocking : ∀ i k n n', s.kinds.get? i = some k → k.isBlocking = true →
    s.subpartitions.get? i = some n → s'.subpartitions.get? i = some n' → n = n'
  kinds : s.kinds = s'.kinds

/-- Neither side of the task has shrunk. -/
structure Task.Below (task task' : Task) : Prop where
  inputs : task.inputs.Below task'.inputs
  outputs : task.outputs.Below task'.outputs

/-- The shares are of the same edge, and the first is not larger. -/
structure Share.Below (s s' : Share) : Prop where
  edge : s.edge = s'.edge
  side : s.side = s'.side
  kind : s.kind = s'.kind
  buffers : s.buffers ≤ s'.buffers

variable {t t' : Tuning} {task task' : Task}

/-! ### Writing edges -/

theorem EdgeMap.below_refl (m : EdgeMap UInt32) : m.Below m where
  ids _ := Iff.rfl
  le i n n' hn hn' := by
    rw [Option.some.inj (hn.symm.trans hn')]
    exact UInt32.le_refl _

theorem EdgeMap.Below.insert {m m' : EdgeMap UInt32} (h : m.Below m') (i : EdgeId) {n n' : UInt32}
    (hle : n ≤ n') : (m.insert i n).Below (m'.insert i n') where
  ids j := by
    rw [get?_insert, get?_insert]
    split
    · simp
    · exact h.ids j
  le j a a' ha ha' := by
    rw [get?_insert] at ha ha'
    split at ha
    · rename_i hj
      rw [if_pos hj] at ha'
      rwa [← Option.some.inj ha, ← Option.some.inj ha']
    · rename_i hj
      rw [if_neg hj] at ha'
      exact h.le j a a' ha ha'

theorem Inputs.below_refl (s : Inputs) : s.Below s :=
  ⟨EdgeMap.below_refl _, EdgeMap.below_refl _, rfl⟩

theorem Outputs.below_refl (s : Outputs) : s.Below s where
  ids _ := Iff.rfl
  bounded _ _ _ _ hn hn' := by
    rw [Option.some.inj (hn.symm.trans hn')]
    exact UInt32.le_refl _
  blocking _ _ _ _ _ _ hn hn' := Option.some.inj (hn.symm.trans hn')
  kinds := rfl

theorem Inputs.Below.insert {s s' : Inputs} (h : s.Below s') (i : EdgeId) (k : Kind)
    {n n' r r' : UInt32} (hn : n ≤ n') (hr : r ≤ r') :
    (s.insert i k n r).Below (s'.insert i k n' r') :=
  ⟨h.channels.insert i hn, h.reuse.insert i hr, congrArg (EdgeMap.insert · i k) h.kinds⟩

theorem Outputs.Below.insert {s s' : Outputs} (h : s.Below s') (i : EdgeId) (k : Kind)
    {n n' : UInt32} (hbounded : k.isBounded = true → n ≤ n')
    (hblocking : k.isBlocking = true → n = n') : (s.insert i k n).Below (s'.insert i k n') where
  ids j := by
    simp only [Outputs.insert, EdgeMap.get?_insert]
    split
    · simp
    · exact h.ids j
  bounded j a a' hk ha ha' := by
    simp only [Outputs.insert, EdgeMap.get?_insert] at hk ha ha'
    split at hk
    · rename_i hj
      obtain rfl := Option.some.inj hk
      rw [if_pos hj] at ha ha'
      rw [← Option.some.inj ha, ← Option.some.inj ha']
      exact hbounded rfl
    · rename_i hj
      rw [if_neg hj] at ha ha'
      exact h.bounded j a a' hk ha ha'
  blocking j l a a' hk hl ha ha' := by
    simp only [Outputs.insert, EdgeMap.get?_insert] at hk ha ha'
    split at hk
    · rename_i hj
      obtain rfl := Option.some.inj hk
      rw [if_pos hj] at ha ha'
      rw [← Option.some.inj ha, ← Option.some.inj ha']
      exact hblocking hl
    · rename_i hj
      rw [if_neg hj] at ha ha'
      exact h.blocking j l a a' hk hl ha ha'
  kinds := congrArg (EdgeMap.insert · i k) h.kinds

/-! ## It can still be planned -/

theorem ne_zero_of_le {n n' : UInt32} (hn : n ≠ 0) (h : n ≤ n') : n' ≠ 0 := by
  rintro rfl
  exact hn (UInt32.le_antisymm h (UInt32.zero_le))

theorem Inputs.Below.complete {s s' : Inputs} (h : s.Below s') (hs : s.Complete) :
    s'.Complete := by
  intro i n' hn'
  obtain ⟨n, hn⟩ := (h.channels.ids i).mpr ⟨n', hn'⟩
  obtain ⟨hkind, hpos, hreuse⟩ := hs i n hn
  exact ⟨h.kinds ▸ hkind, ne_zero_of_le hpos (h.channels.le i n n' hn hn'),
    (h.reuse.ids i).mp hreuse⟩

namespace Outputs.Below

variable {s s' : Outputs} (h : s.Below s')
include h

theorem unbounded {i : EdgeId} {k : Kind} (hu : s'.Unbounded i k) : s.Unbounded i k :=
  ⟨(h.ids i).mpr hu.counted, h.kinds ▸ hu.kind, hu.refused⟩

/-- A count that is not zero could become zero only where the kind is refused anyway. -/
theorem complete (hs : s.Complete) (hnone : ∀ i k, ¬ s.Unbounded i k) : s'.Complete := by
  intro i n' hn'
  obtain ⟨n, hn⟩ := (h.ids i).mpr ⟨n', hn'⟩
  obtain ⟨⟨k, hk⟩, hpos⟩ := hs i n hn
  refine ⟨⟨k, h.kinds ▸ hk⟩, ?_⟩
  cases k with
  | pipelined => exact absurd ⟨⟨n, hn⟩, hk, Or.inl rfl⟩ (hnone i _)
  | pipelinedApproximate => exact absurd ⟨⟨n, hn⟩, hk, Or.inr rfl⟩ (hnone i _)
  | pipelinedBounded => exact ne_zero_of_le hpos (h.bounded i n n' hk hn hn')
  | blocking | blockingPersistent => exact h.blocking i _ n n' hk rfl hn hn' ▸ hpos

end Outputs.Below

namespace Task.Below

variable (htask : task.Below task')
include htask

/-- **A task that has grown can still be planned.** -/
theorem exists_plan {p : Plan} (h : (task.plan .standing t).outcome = .ok p) :
    ∃ p', (task'.plan .standing t').outcome = .ok p' := by
  obtain ⟨hins, houts, hnone⟩ := exists_plan_iff.mp ⟨p, h⟩
  exact exists_plan_iff.mpr ⟨htask.inputs.complete hins, htask.outputs.complete houts hnone,
    fun i k hu => hnone i k (htask.outputs.unbounded hu)⟩

/-- The same ids are counted. -/
theorem ids_eq (side : Side) : task.ids side = task'.ids side := by
  cases side with
  | input => exact EdgeMap.ids_eq htask.inputs.channels.ids
  | output => exact EdgeMap.ids_eq htask.outputs.ids

end Task.Below

/-! ## No share is smaller -/

/-- What is held of an input edge before and after. -/
theorem Inputs.Below.planned_below {s s' : Inputs} (h : s.Below s') (ht : t.Below t')
    {e e' : InputEdge} (he : s.Holds e) (he' : s'.Holds e') (hid : e.id = e'.id) :
    (e.planned .standing t).Below (e'.planned .standing t') := by
  have hcounted := he.counted
  have hkind := he.kind
  have hreuse := he.reuse
  rw [hid] at hcounted hkind hreuse
  have hkinds : e.kind = e'.kind := by
    rw [h.kinds] at hkind
    exact Option.some.inj (hkind.symm.trans he'.kind)
  have hchannels := h.channels.le _ _ _ hcounted he'.counted
  have hle := h.reuse.le _ _ _ hreuse he'.reuse
  refine ⟨hid, rfl, hkinds, ?_⟩
  apply Saturating.mul_mono
  · show (Gate.layout e.kind e.channels t).target ≤ (Gate.layout e'.kind e'.channels t').target
    rw [hkinds]
    exact Gate.target_mono ht hchannels
  · rw [UInt64.le_iff_toNat_le, UInt32.toNat_toUInt64, UInt32.toNat_toUInt64]
    exact UInt32.le_iff_toNat_le.mp hle

/-- What is held of an output edge before and after. -/
theorem Outputs.Below.announced?_mono {s s' : Outputs} (h : s.Below s') (ht : t.Below t')
    {e e' : OutputEdge} (he : s.Holds e) (he' : s'.Holds e') (hid : e.id = e'.id) {n : UInt64}
    (hn : e.announced? t = some n) :
    e.kind = e'.kind ∧ ∃ n', e'.announced? t' = some n' ∧ n ≤ n' := by
  have hcounted := he.counted
  have hkind := he.kind
  rw [hid] at hcounted hkind
  have hkinds : e.kind = e'.kind := by
    rw [h.kinds] at hkind
    exact Option.some.inj (hkind.symm.trans he'.kind)
  refine ⟨hkinds, ?_⟩
  unfold OutputEdge.announced? at hn ⊢
  rw [← hkinds]
  refine Partition.announced?_mono ht ?_ ?_ hn
  · intro hbounded
    refine h.bounded _ _ _ ?_ hcounted he'.counted
    rw [hkind]
    cases hk : e.kind with
    | pipelinedBounded => rfl
    | _ => rw [hk] at hbounded; cases hbounded
  · intro hblocking
    exact h.blocking _ _ _ _ hkind hblocking hcounted he'.counted

/-- **No edge announces less.** -/
theorem Task.Below.share_below (htask : task.Below task') (ht : t.Below t') {s s' : Share}
    (hs : task.Gives .standing t s) (hs' : task'.Gives .standing t' s') (hedge : s.edge = s'.edge)
    (hside : s.side = s'.side) : s.Below s' := by
  cases hs with
  | input he =>
    cases hs' with
    | input he' => exact htask.inputs.planned_below ht he he' hedge
    | output => cases hside
  | output he hn =>
    cases hs' with
    | input => cases hside
    | output he' hn' =>
      rw [OutputEdge.announce_eq_ok_iff] at hn hn'
      obtain ⟨hkinds, m, hm, hle⟩ := htask.outputs.announced?_mono ht he he' hedge hn
      obtain rfl := Option.some.inj (hm.symm.trans hn')
      exact ⟨hedge, rfl, hkinds, hle⟩

/-! ## No total is smaller -/

theorem Plan.sideSum_le {p p' : Plan} {side : Side}
    (h : List.Forall₂ Share.Below (p.sideShares side) (p'.sideShares side)) :
    sideSum side p.shares ≤ sideSum side p'.shares := by
  apply List.Forall₂.sum_le_sum
  rw [List.forall₂_map_left_iff, List.forall₂_map_right_iff]
  exact h.imp fun _ _ hs => UInt64.le_iff_toNat_le.mp hs.buffers

namespace Task

section

variable (htask : task.Below task') (ht : t.Below t') {p p' : Plan}
  (h : (task.plan .standing t).outcome = .ok p) (h' : (task'.plan .standing t').outcome = .ok p')
include htask ht h h'

/-- Both plans list the same edges, and the first lists no larger share. -/
theorem Below.sideShares_below (side : Side) :
    List.Forall₂ Share.Below (p.sideShares side) (p'.sideShares side) := by
  have hids : (p.sideShares side).map Share.edge = (p'.sideShares side).map Share.edge := by
    rw [edges_sideShares h, edges_sideShares h', htask.ids_eq]
  refine forall₂_of_map_eq hids fun s hs s' hs' hedge => ?_
  obtain ⟨hgives, hside⟩ := (mem_sideShares_iff_gives h).mp hs
  obtain ⟨hgives', hside'⟩ := (mem_sideShares_iff_gives h').mp hs'
  exact htask.share_below ht hgives hgives' hedge (hside.trans hside'.symm)

theorem Below.shares_below : List.Forall₂ Share.Below p.shares p'.shares := by
  rw [shares_eq_append h, shares_eq_append h']
  exact List.rel_append (htask.sideShares_below ht h h' .input)
    (htask.sideShares_below ht h h' .output)

/-- What is looked up in the first plan is found in the other, and is no larger. -/
theorem Below.buffers?_mono {i : EdgeId} {side : Side} {n : UInt64}
    (hn : p.buffers? i side = some n) : ∃ n', p'.buffers? i side = some n' ∧ n ≤ n' := by
  obtain ⟨s, hs, rfl, rfl, rfl⟩ := (buffers?_eq_some_iff h).mp hn
  have hedge : s.edge ∈ task'.ids s.side := by
    rw [← htask.ids_eq, ← edges_sideShares h]
    exact List.mem_map_of_mem ((mem_sideShares_iff_gives h).mpr ⟨hs, rfl⟩)
  obtain ⟨s', hs', hside', hedge'⟩ := exists_gives h' hedge
  exact ⟨s'.buffers, (buffers?_eq_some_iff h').mpr ⟨s', hs', hedge', hside', rfl⟩,
    (htask.share_below ht hs hs' hedge'.symm hside'.symm).buffers⟩

/-- No total of the first plan is larger. -/
theorem Below.totals_mono :
    p.inputsTotal ≤ p'.inputsTotal ∧ p.outputsTotal ≤ p'.outputsTotal ∧ p.total ≤ p'.total := by
  have hi := Plan.sideSum_le (htask.sideShares_below ht h h' .input)
  have ho := Plan.sideSum_le (htask.sideShares_below ht h h' .output)
  have hacc := accounts_shares h
  have hacc' := accounts_shares h'
  simp only [UInt64.le_iff_toNat_le, hacc.inputs, hacc'.inputs, hacc.outputs, hacc'.outputs,
    hacc.total, hacc'.total]
  omega

end

/-- **A larger task announces no less.** If a task can be planned, so can one that has grown, also
under larger tuning values. The plans list the same edges, no share is smaller than before, whether
it is listed or looked up, and neither is a total. -/
theorem plan_mono (htask : task.Below task') (ht : t.Below t') {p : Plan}
    (h : (task.plan .standing t).outcome = .ok p) :
    ∃ p', (task'.plan .standing t').outcome = .ok p' ∧
      List.Forall₂ Share.Below p.shares p'.shares ∧
      (∀ i side n, p.buffers? i side = some n → ∃ n', p'.buffers? i side = some n' ∧ n ≤ n') ∧
      p.inputsTotal ≤ p'.inputsTotal ∧ p.outputsTotal ≤ p'.outputsTotal ∧
      (task.announcement .standing t).outcome = .ok p.total ∧
      (task'.announcement .standing t').outcome = .ok p'.total ∧ p.total ≤ p'.total := by
  obtain ⟨p', h'⟩ : ∃ p', (task'.plan .standing t').outcome = .ok p' := htask.exists_plan h
  obtain ⟨hinputs, houtputs, htotal⟩ := htask.totals_mono ht h h'
  exact ⟨p', h', htask.shares_below ht h h', fun _ _ _ => htask.buffers?_mono ht h h', hinputs,
    houtputs, announcement_eq_ok_iff.mpr ⟨p, h, rfl⟩, announcement_eq_ok_iff.mpr ⟨p', h', rfl⟩,
    htotal⟩

end Task

/-- A gate that pins its buffers within its cap, a bounded output and a sorted one. -/
def Task.roomy : Task where
  inputs := Inputs.insert {} ⟨1⟩ .blocking 14 1
  outputs := (Outputs.insert {} ⟨1⟩ .pipelinedBounded 3).insert ⟨2⟩ .blocking 6

/-- The same edges with more channels than the cap has room to pin buffers to. -/
def Task.crowded : Task where
  inputs := Inputs.insert {} ⟨1⟩ .blocking 16 2
  outputs := (Outputs.insert {} ⟨1⟩ .pipelinedBounded 5).insert ⟨2⟩ .blocking 6

/-- Tuning values with a cap. -/
def Tuning.narrow : Tuning where
  buffersPerChannel := 2
  floatingPerGate := 8
  gateCap := some 30
  sortFanOut := 4
  sortFloor := 12

/-- Larger tuning values with a larger cap. -/
def Tuning.wide : Tuning where
  buffersPerChannel := 3
  floatingPerGate := 9
  gateCap := some 40
  sortFanOut := 4
  sortFloor := 20

/-- The channels of the gate lose their exclusive buffers, and still no share is smaller. -/
theorem Task.plan_mono_roomy_crowded :
    Task.roomy.Below Task.crowded ∧ Tuning.narrow.Below Tuning.wide ∧
    ((Gate.layout .blocking ⟨14, by decide⟩ Tuning.narrow).exclusivePerChannel,
      (Gate.layout .blocking ⟨16, by decide⟩ Tuning.wide).exclusivePerChannel) = (2, 0) ∧
    ∃ p p', (Task.roomy.plan .standing Tuning.narrow).outcome = .ok p ∧
      (Task.crowded.plan .standing Tuning.wide).outcome = .ok p' ∧ (p.total, p'.total) = (56, 124) ∧
      List.Forall₂ Share.Below p.shares p'.shares := by
  have htask : Task.roomy.Below Task.crowded :=
    ⟨(Inputs.below_refl {}).insert ⟨1⟩ .blocking (by decide) (by decide),
      ((Outputs.below_refl {}).insert ⟨1⟩ .pipelinedBounded (by decide) (by decide)).insert ⟨2⟩
        .blocking (by decide) (by decide)⟩
  have ht : Tuning.narrow.Below Tuning.wide :=
    ⟨by decide, by decide, .some (by decide), rfl, by decide⟩
  have h : (Task.roomy.plan .standing Tuning.narrow).outcome = .ok
      ⟨[⟨⟨1⟩, .input, .blocking, 30⟩, ⟨⟨1⟩, .output, .pipelinedBounded, 14⟩,
        ⟨⟨2⟩, .output, .blocking, 12⟩], 30, 26⟩ := by rfl
  obtain ⟨p', h', hshares, -⟩ := Task.plan_mono htask ht h
  have hp' : (Task.crowded.plan .standing Tuning.wide).outcome = .ok
      ⟨[⟨⟨1⟩, .input, .blocking, 80⟩, ⟨⟨1⟩, .output, .pipelinedBounded, 24⟩,
        ⟨⟨2⟩, .output, .blocking, 20⟩], 80, 44⟩ := by rfl
  obtain rfl := Except.ok.inj (hp'.symm.trans h')
  exact ⟨htask, ht, by decide, _, _, h, hp', by decide, hshares⟩

end BufferPlan
