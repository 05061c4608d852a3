import BufferPlan.Proofs.Exact
import BufferPlan.Proofs.Options
import BufferPlan.Proofs.Shares
import BufferPlan.Proofs.Totals

/-!
# No live edge is starved

Valid tuning values can be as small as they like otherwise: channels may pin nothing, gates may have
no floating buffers and a cap may be one. Still each gate requires a buffer that floats, each result
partition has a floor of at least one buffer, and no share is below what is required. So a task
announces nothing only if it has no output, and no input that is read.

* `Tuning.validate_eq_ok_iff_pos`: what it is to be valid.
* `Gate.Exact.requiredFloating_pos`: a buffer floats that is required.
* `Partition.one_le_floor`: the floor of a result partition.
* `Plan.Accounts.total_eq_zero_iff`: a total is zero iff every share is.
* **`Task.plan_starves_no_edge`**: the least that each edge gets, and when the total is zero.
-/

namespace BufferPlan

variable {kind : Kind} {n : Count} {t : Tuning} {task : Task}

/-! ## Valid tuning values -/

/-- Sorted pools begin at a fan-out of at least one and have a floor of at least one, and a cap is
at least one. -/
theorem Tuning.validate_eq_ok_iff_pos :
    t.validate = .ok () ↔
      t.sortFanOut ≠ 0 ∧ t.sortFloor ≠ 0 ∧ ∀ cap, t.gateCap = some cap → cap ≠ 0 := by
  rw [validate_eq_ok_iff, firstZero?, List.find?_eq_none]
  simp only [Setting.positive, List.forall_mem_cons, get?, decide_eq_true_eq, Option.some.injEq]
  refine and_congr_right fun _ => and_congr_right fun _ => ?_
  constructor
  · rintro ⟨hcap, -⟩ cap h rfl
    exact hcap (decide_eq_true h)
  · intro hcap
    exact ⟨fun h => hcap 0 (of_decide_eq_true h) rfl, by simp⟩

section

variable (ht : t.validate = .ok ())
include ht

/-! ## Gates -/

theorem Gate.Exact.threshold_pos (kind : Kind) : 0 < threshold kind t := by
  obtain ⟨-, -, hcap⟩ := Tuning.validate_eq_ok_iff_pos.mp ht
  unfold threshold
  split
  · rename_i cap h
    have hne := hcap cap h
    rw [ne_eq, ← UInt32.toNat_inj] at hne
    exact Nat.pos_of_ne_zero hne
  · split
    · decide
    · decide

theorem Gate.Exact.required_pos (kind : Kind) (n : Count) : 0 < required kind n t := by
  have := threshold_pos ht kind
  unfold required
  omega

/-- **A buffer floats that is required**: where channels pin all exclusive buffers, one more is
required, and else all that is required floats. -/
theorem Gate.Exact.requiredFloating_pos (kind : Kind) (n : Count) :
    0 < requiredFloating kind n t := by
  have hrequired := required_pos ht kind n
  rw [requiredFloating, pinned_eq]
  split
  · omega
  · omega

/-! ## Result partitions -/

theorem Partition.one_le_floor (kind : Kind) (n : Count) : 1 ≤ (bounds kind n t).floor := by
  obtain ⟨-, hfloor, -⟩ := Tuning.validate_eq_ok_iff_pos.mp ht
  rw [ne_eq, ← UInt32.toNat_inj] at hfloor
  rw [UInt64.le_iff_toNat_le, Exact.toNat_floor, Exact.floor]
  split
  · exact Nat.pos_of_ne_zero hfloor
  · exact Nat.le_add_left 1 _

end

/-! ## What an edge gets -/

/-- An input edge that announces `n` buffers gets what its gates require, and a floating buffer in
each. -/
structure InputEdge.Served (t : Tuning) (e : InputEdge) (n : UInt64) : Prop where
  required : 1 ≤ (Gate.layout e.kind e.channels t).required
  floats : 1 ≤ ((Gate.layout e.kind e.channels t).floatingPool e.channels).floor
  announced : min (2 ^ 64 - 1) (e.reuse.toNat * (Gate.layout e.kind e.channels t).required.toNat) ≤
    n.toNat

/-- An output edge that announces `n` buffers gets the floor of its pool and no more than its
ceiling. Unless it is sorted, it has a buffer for each subpartition and one more. -/
structure OutputEdge.Served (t : Tuning) (e : OutputEdge) (n : UInt64) : Prop where
  floor : 1 ≤ (Partition.bounds e.kind e.subpartitions t).floor
  announced : (Partition.bounds e.kind e.subpartitions t).floor ≤ n
  subpartitions : ¬ Partition.isSorted e.kind e.subpartitions t = true →
    e.subpartitions.val.toNat + 1 ≤ n.toNat
  ceiling : ∀ c, (Partition.bounds e.kind e.subpartitions t).ceiling? = some c → n ≤ c

theorem InputEdge.served (ht : t.validate = .ok ()) (e : InputEdge) :
    e.Served t (e.announced .standing t) where
  required := by
    rw [UInt64.le_iff_toNat_le, Gate.Exact.toNat_required]
    exact Gate.Exact.required_pos ht e.kind e.channels
  floats := by
    rw [UInt64.le_iff_toNat_le, (Gate.Exact.toNat_floatingPool _ _ _).1]
    exact Gate.Exact.requiredFloating_pos ht e.kind e.channels
  announced := by
    have hle := Nat.mul_le_mul_left e.reuse.toNat (Gate.required_le_target e.kind e.channels t)
    have hdemand : e.demand .standing t =
        e.reuse.toNat * (Gate.layout e.kind e.channels t).target.toNat := Nat.mul_comm _ _
    rw [toNat_announced, hdemand, Saturating.top_eq]
    omega

theorem OutputEdge.served (ht : t.validate = .ok ()) {e : OutputEdge} {m : UInt64}
    (h : e.announced? t = some m) : e.Served t m := by
  obtain ⟨hfloor, hceiling⟩ :=
    Partition.announced?_between (Partition.ordered_bounds e.kind e.subpartitions t) h
  refine ⟨Partition.one_le_floor ht e.kind e.subpartitions, hfloor, fun hsorted => ?_, hceiling⟩
  rw [UInt64.le_iff_toNat_le, Partition.Exact.toNat_floor, Partition.Exact.floor,
    if_neg hsorted] at hfloor
  exact hfloor

/-- An input edge announces nothing only if it is not read. -/
theorem InputEdge.Served.announced_eq_zero_iff {e : InputEdge}
    (h : e.Served t (e.announced .standing t)) : e.announced .standing t = 0 ↔ e.reuse = 0 := by
  have hrequired := UInt64.le_iff_toNat_le.mp h.required
  have hle := h.announced
  rw [← UInt64.toNat_inj, ← UInt32.toNat_inj, UInt64.toNat_zero, UInt32.toNat_zero]
  constructor
  · intro hzero
    by_contra hreuse
    have hpos := Nat.mul_pos (Nat.pos_of_ne_zero hreuse) hrequired
    omega
  · intro hreuse
    rw [InputEdge.toNat_announced, InputEdge.demand, hreuse, Nat.mul_zero, Nat.zero_min]

/-- An output edge announces something. -/
theorem OutputEdge.Served.ne_zero {e : OutputEdge} {m : UInt64} (h : e.Served t m) : m ≠ 0 := by
  rintro rfl
  exact absurd (UInt64.le_trans h.floor h.announced) (by decide)

/-! ## Whole tasks -/

/-- **A total is zero iff every share is.** -/
theorem Plan.Accounts.total_eq_zero_iff {p : Plan} {l : List Share} (h : p.Accounts l) :
    p.total = 0 ↔ ∀ s ∈ l, s.buffers = 0 := by
  have hzero : p.total.toNat = 0 ↔ (l.map fun s => s.buffers.toNat).sum = 0 := by
    rw [h.total, sideSum_input_add_output, Saturating.top_eq]
    omega
  rw [← UInt64.toNat_inj, UInt64.toNat_zero, hzero, List.sum_eq_zero_iff]
  simp only [List.mem_map, forall_exists_index, and_imp, forall_apply_eq_imp_iff₂]
  refine forall₂_congr fun s _ => ?_
  rw [← UInt64.toNat_inj, UInt64.toNat_zero]

namespace Task

variable (ht : t.validate = .ok ()) {p : Plan} (h : (task.plan .standing t).outcome = .ok p)
include ht h

/-- **A task announces nothing iff it has no output and reads no input.** -/
theorem total_eq_zero_iff :
    p.total = 0 ↔ task.outputs.isEmpty = true ∧
      ∀ i n, task.inputs.channels.get? i = some n → task.inputs.reuse.get? i = some 0 := by
  have hempty : task.outputs.isEmpty = true ↔ task.ids .output = [] := by
    rw [Outputs.isEmpty, EdgeMap.isEmpty, List.isEmpty_iff, ids, List.map_eq_nil_iff]
  rw [(accounts_shares h).total_eq_zero_iff, hempty]
  simp only [mem_shares_iff_gives h]
  constructor
  · intro hzero
    refine ⟨List.eq_nil_iff_forall_not_mem.mpr fun i hi => ?_, fun i n hn => ?_⟩
    · obtain ⟨s, hs, hside, -⟩ := exists_gives h hi
      have hbuffers := hzero s hs
      cases hs with
      | input => cases hside
      | output _ hm =>
        rw [OutputEdge.announce_eq_ok_iff] at hm
        exact (OutputEdge.served ht hm).ne_zero hbuffers
    · have hi : i ∈ task.ids .input := EdgeMap.mem_ids_iff.mpr ⟨n, hn⟩
      obtain ⟨s, hs, hside, rfl⟩ := exists_gives h hi
      have hbuffers := hzero s hs
      cases hs with
      | input he =>
        have hreuse := (InputEdge.served ht _).announced_eq_zero_iff.mp hbuffers
        exact hreuse ▸ he.reuse
      | output => cases hside
  · rintro ⟨hnone, hreuse⟩ s hs
    cases hs with
    | input he =>
      have hr := hreuse _ _ he.counted
      exact (InputEdge.served ht _).announced_eq_zero_iff.mpr
        (Option.some.inj (he.reuse.symm.trans hr))
    | output he =>
      have hi := EdgeMap.mem_ids_iff.mpr ⟨_, he.counted⟩
      rw [ids] at hnone
      rw [hnone] at hi
      cases hi

/-- **No live edge is starved.** Under valid tuning values each edge of a task that is planned is
served, and what it announces is found in the plan. So the whole announcement is zero only if there
is no output and no input that is read. -/
theorem plan_starves_no_edge :
    ∃ ins outs, task.inputs.resolve = .ok ins ∧ task.outputs.resolve = .ok outs ∧
      (∀ e ∈ ins, ∃ n, p.buffers? e.id .input = some n ∧ e.Served t n) ∧
      (∀ e ∈ outs, ∃ n, p.buffers? e.id .output = some n ∧ e.Served t n) ∧
      (task.announcement .standing t).outcome = .ok p.total ∧
      (p.total = 0 ↔ task.outputs.isEmpty = true ∧
        ∀ i n, task.inputs.channels.get? i = some n → task.inputs.reuse.get? i = some 0) := by
  obtain ⟨ins, outs, shares, hins, houts, hshares, -⟩ := plan_eq_ok_iff.mp h
  refine ⟨ins, outs, hins, houts, fun e he => ?_, fun e he => ?_, ?_, total_eq_zero_iff ht h⟩
  · have hgives : task.Gives .standing t (e.planned .standing t) :=
      .input ((Inputs.mem_of_resolve hins).mp he)
    exact ⟨e.announced .standing t, (buffers?_eq_some_iff h).mpr ⟨_, hgives, rfl, rfl, rfl⟩,
      e.served ht⟩
  · obtain ⟨s, hs⟩ := exists_mapM_eq_ok_iff.mp ⟨shares, hshares⟩ e he
    obtain ⟨m, hm, rfl⟩ := OutputEdge.share_eq_ok_iff.mp hs
    have hgives : task.Gives .standing t ⟨e.id, .output, e.kind, m⟩ :=
      .output ((Outputs.mem_of_resolve houts).mp he) (OutputEdge.announce_eq_ok_iff.mpr hm)
    exact ⟨m, (buffers?_eq_some_iff h).mpr ⟨_, hgives, rfl, rfl, rfl⟩, OutputEdge.served ht hm⟩
  · exact announcement_eq_ok_iff.mpr ⟨p, h, rfl⟩

end Task

/-- The least valid tuning values. -/
def Tuning.least : Tuning where
  buffersPerChannel := 0
  floatingPerGate := 0
  gateCap := some 1
  sortFanOut := 1
  sortFloor := 1

/-- An input that is read, one that is not, a bounded output and a sorted one. -/
def Task.frugal : Task where
  inputs := (Inputs.insert {} ⟨1⟩ .pipelined 3 4).insert ⟨2⟩ .blocking 7 0
  outputs := (Outputs.insert {} ⟨3⟩ .pipelinedBounded 2).insert ⟨4⟩ .blocking 5

/-- Every edge that is read or written gets its buffers where the tuning values allow the fewest. -/
theorem Task.plan_starves_no_edge_frugal :
    Tuning.least.validate = .ok () ∧ ∃ p, (frugal.plan .standing Tuning.least).outcome = .ok p ∧
      p.shares.map Share.buffers = [4, 0, 3, 1] ∧ ∃ ins outs,
      frugal.inputs.resolve = .ok ins ∧ frugal.outputs.resolve = .ok outs ∧
      (∀ e ∈ ins, ∃ n, p.buffers? e.id .input = some n ∧ e.Served Tuning.least n) ∧
      (∀ e ∈ outs, ∃ n, p.buffers? e.id .output = some n ∧ e.Served Tuning.least n) ∧
      p.total ≠ 0 := by
  have ht : Tuning.least.validate = .ok () := by rfl
  have h : (frugal.plan .standing Tuning.least).outcome = .ok
      ⟨[⟨⟨1⟩, .input, .pipelined, 4⟩, ⟨⟨2⟩, .input, .blocking, 0⟩,
        ⟨⟨3⟩, .output, .pipelinedBounded, 3⟩, ⟨⟨4⟩, .output, .blocking, 1⟩], 4, 4⟩ := by rfl
  obtain ⟨ins, outs, hins, houts, hserved, hserved', -, -⟩ := plan_starves_no_edge ht h
  exact ⟨ht, _, h, rfl, ins, outs, hins, houts, hserved, hserved', by decide⟩

end BufferPlan
