import BufferPlan.Proofs.Traversal
import BufferPlan.Task

/-!
# Joining the maps of a task

An id is an edge if it is counted. The join asks the other maps about every counted id and about no
other, so it succeeds iff nothing is missing at a counted id (`Complete`), and if it fails it names
the smallest counted id with a fault, with the fault that is looked for first (`Faulty`).

* `resolve_eq_error_iff`: what the join fails with.
* `exists_resolve_iff`: when it succeeds.
* `mem_of_resolve`, `ids_of_resolve`, `ascending_of_resolve`: the edges it gives, one for each
  counted id and ascending by id.
-/

namespace BufferPlan

/-! ## Inputs -/

namespace Inputs

/-- Nothing is missing or zero at a counted id. A reuse count may be zero. -/
def Complete (s : Inputs) : Prop :=
  ∀ i n, s.channels.get? i = some n →
    (∃ k, s.kinds.get? i = some k) ∧ n ≠ 0 ∧ ∃ r, s.reuse.get? i = some r

/-- The fault of a counted id, the first in the order in which faults are looked for. -/
inductive Faulty (s : Inputs) (i : EdgeId) : EdgeFault → Prop
  | missingKind {n : UInt32} (counted : s.channels.get? i = some n)
      (kind : s.kinds.get? i = none) : Faulty s i .missingKind
  | noChannels {k : Kind} (counted : s.channels.get? i = some 0)
      (kind : s.kinds.get? i = some k) : Faulty s i .noChannels
  | missingReuse {n : UInt32} {k : Kind} (counted : s.channels.get? i = some n) (pos : n ≠ 0)
      (kind : s.kinds.get? i = some k) (reuse : s.reuse.get? i = none) : Faulty s i .missingReuse

/-- The maps hold the edge. -/
structure Holds (s : Inputs) (e : InputEdge) : Prop where
  counted : s.channels.get? e.id = some e.channels.val
  kind : s.kinds.get? e.id = some e.kind
  reuse : s.reuse.get? e.id = some e.reuse

variable {s : Inputs} {i : EdgeId} {n : UInt32}

theorem Faulty.counted {f : EdgeFault} (h : s.Faulty i f) : ∃ n, s.channels.get? i = some n := by
  cases h with
  | missingKind hn => exact ⟨_, hn⟩
  | noChannels hn => exact ⟨_, hn⟩
  | missingReuse hn => exact ⟨_, hn⟩

theorem edge_eq_ok_iff {e : InputEdge} :
    s.edge i n = .ok e ↔ e.id = i ∧ s.kinds.get? i = some e.kind ∧ e.channels.val = n ∧
      s.reuse.get? i = some e.reuse := by
  obtain ⟨i', k', c', r'⟩ := e
  unfold edge
  rw [← Count.of?_eq_some_iff]
  cases s.kinds.get? i with
  | none => simp
  | some k =>
    cases Count.of? n with
    | none => simp
    | some c =>
      cases s.reuse.get? i with
      | none => simp
      | some r => simp [eq_comm]

/-- The join of a counted id fails exactly with the fault of the id. -/
theorem edge_eq_error_iff {x : PlanError} (counted : s.channels.get? i = some n) :
    s.edge i n = .error x ↔ ∃ f, s.Faulty i f ∧ x = .badEdge i f := by
  unfold edge
  constructor
  · intro h
    cases hk : s.kinds.get? i with
    | none =>
      rw [hk] at h
      exact ⟨_, .missingKind counted hk, (Except.error.inj h).symm⟩
    | some k =>
      rw [hk] at h
      cases hc : Count.of? n with
      | none =>
        rw [hc] at h
        have h0 := Count.of?_eq_none_iff.mp hc
        exact ⟨_, .noChannels (h0 ▸ counted) hk, (Except.error.inj h).symm⟩
      | some c =>
        rw [hc] at h
        have hpos : n ≠ 0 := fun h0 => by
          rw [Count.of?_eq_none_iff.mpr h0] at hc
          cases hc
        cases hr : s.reuse.get? i with
        | none =>
          rw [hr] at h
          exact ⟨_, .missingReuse counted hpos hk hr, (Except.error.inj h).symm⟩
        | some r =>
          rw [hr] at h
          cases h
  · rintro ⟨f, hf, rfl⟩
    cases hf with
    | missingKind _ hk => rw [hk]
    | noChannels h0 hk =>
      obtain rfl : n = 0 := Option.some.inj (counted.symm.trans h0)
      rw [hk]
      rfl
    | missingReuse hn hpos hk hr =>
      obtain rfl := Option.some.inj (counted.symm.trans hn)
      rw [hk, hr]
      cases hc : Count.of? n with
      | none => exact absurd (Count.of?_eq_none_iff.mp hc) hpos
      | some c => rfl

/-- **When the join succeeds.** -/
theorem exists_resolve_iff : (∃ es, s.resolve = .ok es) ↔ s.Complete := by
  rw [resolve, EdgeMap.exists_mapM_entries_eq_ok_iff]
  refine forall_congr' fun i => forall_congr' fun n => imp_congr_right fun _ => ?_
  constructor
  · rintro ⟨e, he⟩
    obtain ⟨-, hk, rfl, hr⟩ := edge_eq_ok_iff.mp he
    exact ⟨⟨_, hk⟩, e.channels.ne_zero, _, hr⟩
  · rintro ⟨⟨k, hk⟩, hpos, r, hr⟩
    obtain ⟨c, hc⟩ := Count.exists_of_ne_zero hpos
    exact ⟨⟨i, k, c, r⟩, edge_eq_ok_iff.mpr ⟨rfl, hk, hc, hr⟩⟩

/-- **What the join fails with.** -/
theorem resolve_eq_error_iff {x : PlanError} :
    s.resolve = .error x ↔
      ∃ i f, s.Faulty i f ∧ (∀ j, j < i → ∀ g, ¬ s.Faulty j g) ∧ x = .badEdge i f :=
  EdgeMap.mapM_entries_eq_error_iff (fun _ _ => Faulty.counted) fun _ _ hn _ => edge_eq_error_iff hn

section

variable {es : List InputEdge} (h : s.resolve = .ok es)
include h

/-- The edges of the join are those the maps hold. -/
theorem mem_of_resolve {e : InputEdge} : e ∈ es ↔ s.Holds e := by
  rw [mem_of_mapM h]
  constructor
  · rintro ⟨⟨i, n⟩, hmem, he⟩
    obtain ⟨rfl, hk, rfl, hr⟩ := edge_eq_ok_iff.mp he
    exact ⟨EdgeMap.mem_entries_iff.mp hmem, hk, hr⟩
  · rintro ⟨hn, hk, hr⟩
    exact ⟨_, EdgeMap.mem_entries_iff.mpr hn, edge_eq_ok_iff.mpr ⟨rfl, hk, rfl, hr⟩⟩

/-- There is one edge for each counted id, in the order of ids. -/
theorem ids_of_resolve : es.map InputEdge.id = s.channels.entries.map Prod.fst :=
  map_of_mapM h fun _ _ he => (edge_eq_ok_iff.mp he).1

theorem ascending_of_resolve : es.Pairwise fun a b => a.id < b.id :=
  EdgeMap.ascending_of_map_eq (ids_of_resolve h)

end

end Inputs

/-! ## Outputs -/

namespace Outputs

/-- Nothing is missing or zero at a counted id. -/
def Complete (s : Outputs) : Prop :=
  ∀ i n, s.subpartitions.get? i = some n → (∃ k, s.kinds.get? i = some k) ∧ n ≠ 0

/-- The fault of a counted id, the first in the order in which faults are looked for. -/
inductive Faulty (s : Outputs) (i : EdgeId) : EdgeFault → Prop
  | missingKind {n : UInt32} (counted : s.subpartitions.get? i = some n)
      (kind : s.kinds.get? i = none) : Faulty s i .missingKind
  | noSubpartitions {k : Kind} (counted : s.subpartitions.get? i = some 0)
      (kind : s.kinds.get? i = some k) : Faulty s i .noSubpartitions

/-- The maps hold the edge. -/
structure Holds (s : Outputs) (e : OutputEdge) : Prop where
  counted : s.subpartitions.get? e.id = some e.subpartitions.val
  kind : s.kinds.get? e.id = some e.kind

variable {s : Outputs} {i : EdgeId} {n : UInt32}

theorem Faulty.counted {f : EdgeFault} (h : s.Faulty i f) :
    ∃ n, s.subpartitions.get? i = some n := by
  cases h with
  | missingKind hn => exact ⟨_, hn⟩
  | noSubpartitions hn => exact ⟨_, hn⟩

theorem edge_eq_ok_iff {e : OutputEdge} :
    s.edge i n = .ok e ↔ e.id = i ∧ s.kinds.get? i = some e.kind ∧ e.subpartitions.val = n := by
  obtain ⟨i', k', c'⟩ := e
  unfold edge
  rw [← Count.of?_eq_some_iff]
  cases s.kinds.get? i with
  | none => simp
  | some k =>
    cases Count.of? n with
    | none => simp
    | some c => simp [eq_comm]

/-- The join of a counted id fails exactly with the fault of the id. -/
theorem edge_eq_error_iff {x : PlanError} (counted : s.subpartitions.get? i = some n) :
    s.edge i n = .error x ↔ ∃ f, s.Faulty i f ∧ x = .badEdge i f := by
  unfold edge
  constructor
  · intro h
    cases hk : s.kinds.get? i with
    | none =>
      rw [hk] at h
      exact ⟨_, .missingKind counted hk, (Except.error.inj h).symm⟩
    | some k =>
      rw [hk] at h
      cases hc : Count.of? n with
      | none =>
        rw [hc] at h
        have h0 := Count.of?_eq_none_iff.mp hc
        exact ⟨_, .noSubpartitions (h0 ▸ counted) hk, (Except.error.inj h).symm⟩
      | some c =>
        rw [hc] at h
        cases h
  · rintro ⟨f, hf, rfl⟩
    cases hf with
    | missingKind _ hk => rw [hk]
    | noSubpartitions h0 hk =>
      obtain rfl : n = 0 := Option.some.inj (counted.symm.trans h0)
      rw [hk]
      rfl

/-- **When the join succeeds.** -/
theorem exists_resolve_iff : (∃ es, s.resolve = .ok es) ↔ s.Complete := by
  rw [resolve, EdgeMap.exists_mapM_entries_eq_ok_iff]
  refine forall_congr' fun i => forall_congr' fun n => imp_congr_right fun _ => ?_
  constructor
  · rintro ⟨e, he⟩
    obtain ⟨-, hk, rfl⟩ := edge_eq_ok_iff.mp he
    exact ⟨⟨_, hk⟩, e.subpartitions.ne_zero⟩
  · rintro ⟨⟨k, hk⟩, hpos⟩
    obtain ⟨c, hc⟩ := Count.exists_of_ne_zero hpos
    exact ⟨⟨i, k, c⟩, edge_eq_ok_iff.mpr ⟨rfl, hk, hc⟩⟩

/-- **What the join fails with.** -/
theorem resolve_eq_error_iff {x : PlanError} :
    s.resolve = .error x ↔
      ∃ i f, s.Faulty i f ∧ (∀ j, j < i → ∀ g, ¬ s.Faulty j g) ∧ x = .badEdge i f :=
  EdgeMap.mapM_entries_eq_error_iff (fun _ _ => Faulty.counted) fun _ _ hn _ => edge_eq_error_iff hn

section

variable {es : List OutputEdge} (h : s.resolve = .ok es)
include h

/-- The edges of the join are those the maps hold. -/
theorem mem_of_resolve {e : OutputEdge} : e ∈ es ↔ s.Holds e := by
  rw [mem_of_mapM h]
  constructor
  · rintro ⟨⟨i, n⟩, hmem, he⟩
    obtain ⟨rfl, hk, rfl⟩ := edge_eq_ok_iff.mp he
    exact ⟨EdgeMap.mem_entries_iff.mp hmem, hk⟩
  · rintro ⟨hn, hk⟩
    exact ⟨_, EdgeMap.mem_entries_iff.mpr hn, edge_eq_ok_iff.mpr ⟨rfl, hk, rfl⟩⟩

/-- There is one edge for each counted id, in the order of ids. -/
theorem ids_of_resolve : es.map OutputEdge.id = s.subpartitions.entries.map Prod.fst :=
  map_of_mapM h fun _ _ he => (edge_eq_ok_iff.mp he).1

theorem ascending_of_resolve : es.Pairwise fun a b => a.id < b.id :=
  EdgeMap.ascending_of_map_eq (ids_of_resolve h)

end

end Outputs

end BufferPlan
