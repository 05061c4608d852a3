import BufferPlan.Proofs.Alike
import BufferPlan.Proofs.Maps

/-!
# The join is exact

The maps of a side are written apart and may disagree in any way. The join goes through the ids of
the counts and asks the other maps about each of them, so it loses no counted id and lets no other
in. What comes out is known without running it: it is the one list that ascends by id and has the
edges that the maps hold (`Joined`). Where a counted id has a fault there is no such list, and the
join fails with the fault of the smallest such id.

* `Inputs.resolve_eq_ok_iff`, `Outputs.resolve_eq_ok_iff`: the join gives a list iff it is `Joined`.
* `Inputs.resolve_eq_of_alike`, `Outputs.resolve_eq_of_alike`: entries at ids that are not counted
  make no difference.
* **`resolve_is_exact_join`**: how the join of either side ends, for all maps.
-/

namespace BufferPlan

variable {α β : Type} {m : EdgeMap α} {id : β → EdgeId} {Held : β → Prop} {l l' : List β}

/-- The list has one element for each id of a map, in the order of ids, and all that is held. -/
structure Joined (m : EdgeMap α) (id : β → EdgeId) (Held : β → Prop) (l : List β) : Prop where
  size : l.length = m.size
  ascending : l.Pairwise fun a b => id a < id b
  /-- No id of the map is lost. -/
  counted : ∀ i a, m.get? i = some a → ∃ b ∈ l, id b = i
  mem_iff : ∀ b, b ∈ l ↔ Held b

namespace Joined

/-- A list with the ids of the map and with all that is held. -/
theorem of_map_eq (hids : l.map id = m.entries.map Prod.fst) (hmem : ∀ b, b ∈ l ↔ Held b) :
    Joined m id Held l where
  size := by
    have hlength := congrArg List.length hids
    rwa [List.length_map, List.length_map] at hlength
  ascending := EdgeMap.ascending_of_map_eq hids
  counted _ _ ha := EdgeMap.exists_mem_of_map_eq hids ha
  mem_iff := hmem

/-- An ascending list with the ids of the map and with all that is held. -/
theorem of_ascending (hascending : l.Pairwise fun a b => id a < id b)
    (hids : ∀ i, (∃ b ∈ l, id b = i) ↔ ∃ a, m.get? i = some a) (hmem : ∀ b, b ∈ l ↔ Held b) :
    Joined m id Held l := by
  have hl : (l.map id).Pairwise (· < ·) := List.pairwise_map.mpr hascending
  have hm : (m.entries.map Prod.fst).Pairwise (· < ·) := List.pairwise_map.mpr m.ascending
  refine .of_map_eq (eq_of_ascending hl hm fun i => ?_) hmem
  rw [EdgeMap.mem_ids_iff, ← hids, List.mem_map]

/-- There is no second list like it. -/
theorem eq (h : Joined m id Held l) (h' : Joined m id Held l') : l = l' :=
  eq_of_ascending h.ascending h'.ascending fun b => (h.mem_iff b).trans (h'.mem_iff b).symm

end Joined

/-- How a join at the ids of the counts ends, told by the maps. -/
structure ExactJoin (counts : EdgeMap UInt32) (id : β → EdgeId) (Held : β → Prop) (Complete : Prop)
    (Faulty : EdgeId → EdgeFault → Prop) (outcome : Except PlanError (List β)) : Prop where
  succeeds : (∃ l, outcome = .ok l) ↔ Complete
  ok_iff : ∀ l, outcome = .ok l ↔ Joined counts id Held l
  empty_iff : outcome = .ok [] ↔ counts.isEmpty = true
  /-- It fails with the fault of the smallest id that has one. -/
  error_iff : ∀ x, outcome = .error x ↔
    ∃ i f, Faulty i f ∧ (∀ j, j < i → ∀ g, ¬ Faulty j g) ∧ x = .badEdge i f

/-! ## Inputs -/

namespace Inputs

variable {s s' : Inputs} {es : List InputEdge}

/-- Where an edge is held of every counted id, nothing is missing. -/
theorem complete_of_joined (h : Joined s.channels InputEdge.id s.Holds es) : s.Complete := by
  intro i n hn
  obtain ⟨e, he, rfl⟩ := h.counted i n hn
  obtain ⟨hcounted, hkind, hreuse⟩ := (h.mem_iff e).mp he
  obtain rfl : e.channels.val = n := Option.some.inj (hcounted.symm.trans hn)
  exact ⟨⟨_, hkind⟩, e.channels.ne_zero, _, hreuse⟩

/-- **The join gives exactly the list of the edges that are held.** -/
theorem resolve_eq_ok_iff : s.resolve = .ok es ↔ Joined s.channels InputEdge.id s.Holds es := by
  have joined {es : List InputEdge} (h : s.resolve = .ok es) :
      Joined s.channels InputEdge.id s.Holds es :=
    .of_map_eq (ids_of_resolve h) fun _ => mem_of_resolve h
  refine ⟨joined, fun h => ?_⟩
  obtain ⟨es', hes'⟩ := exists_resolve_iff.mpr (complete_of_joined h)
  rwa [h.eq (joined hes')]

theorem resolve_eq_ok_nil_iff : s.resolve = .ok [] ↔ s.isEmpty = true := by
  rw [resolve, mapM_eq_ok_iff, List.forall₂_nil_right_iff, ← List.isEmpty_iff]
  rfl

theorem exactJoin (s : Inputs) :
    ExactJoin s.channels InputEdge.id s.Holds s.Complete s.Faulty s.resolve where
  succeeds := exists_resolve_iff
  ok_iff _ := resolve_eq_ok_iff
  empty_iff := resolve_eq_ok_nil_iff
  error_iff _ := resolve_eq_error_iff

/-- The same ids are counted, and the same is known of each of them. -/
structure AlikeWhereCounted (s s' : Inputs) : Prop where
  channels : s.channels = s'.channels
  alike : ∀ i n, s.channels.get? i = some n → s.Alike i s' i

/-- **Entries at ids that are not counted make no difference.** -/
theorem resolve_eq_of_alike (h : s.AlikeWhereCounted s') : s.resolve = s'.resolve := by
  unfold resolve
  rw [← h.channels]
  refine mapM_congr ?_
  rintro ⟨i, n⟩ hmem
  obtain ⟨-, hreuse, hkinds⟩ := h.alike i n (EdgeMap.mem_entries_iff.mp hmem)
  simp only [edge, hreuse, hkinds]

end Inputs

/-! ## Outputs -/

namespace Outputs

variable {s s' : Outputs} {es : List OutputEdge}

/-- Where an edge is held of every counted id, nothing is missing. -/
theorem complete_of_joined (h : Joined s.subpartitions OutputEdge.id s.Holds es) :
    s.Complete := by
  intro i n hn
  obtain ⟨e, he, rfl⟩ := h.counted i n hn
  obtain ⟨hcounted, hkind⟩ := (h.mem_iff e).mp he
  obtain rfl : e.subpartitions.val = n := Option.some.inj (hcounted.symm.trans hn)
  exact ⟨⟨_, hkind⟩, e.subpartitions.ne_zero⟩

/-- **The join gives exactly the list of the edges that are held.** -/
theorem resolve_eq_ok_iff :
    s.resolve = .ok es ↔ Joined s.subpartitions OutputEdge.id s.Holds es := by
  have joined {es : List OutputEdge} (h : s.resolve = .ok es) :
      Joined s.subpartitions OutputEdge.id s.Holds es :=
    .of_map_eq (ids_of_resolve h) fun _ => mem_of_resolve h
  refine ⟨joined, fun h => ?_⟩
  obtain ⟨es', hes'⟩ := exists_resolve_iff.mpr (complete_of_joined h)
  rwa [h.eq (joined hes')]

theorem resolve_eq_ok_nil_iff : s.resolve = .ok [] ↔ s.isEmpty = true := by
  rw [resolve, mapM_eq_ok_iff, List.forall₂_nil_right_iff, ← List.isEmpty_iff]
  rfl

theorem exactJoin (s : Outputs) :
    ExactJoin s.subpartitions OutputEdge.id s.Holds s.Complete s.Faulty s.resolve where
  succeeds := exists_resolve_iff
  ok_iff _ := resolve_eq_ok_iff
  empty_iff := resolve_eq_ok_nil_iff
  error_iff _ := resolve_eq_error_iff

/-- The same ids are counted, and the same is known of each of them. -/
structure AlikeWhereCounted (s s' : Outputs) : Prop where
  subpartitions : s.subpartitions = s'.subpartitions
  alike : ∀ i n, s.subpartitions.get? i = some n → s.Alike i s' i

/-- **Entries at ids that are not counted make no difference.** -/
theorem resolve_eq_of_alike (h : s.AlikeWhereCounted s') : s.resolve = s'.resolve := by
  unfold resolve
  rw [← h.subpartitions]
  refine mapM_congr ?_
  rintro ⟨i, n⟩ hmem
  obtain ⟨-, hkinds⟩ := h.alike i n (EdgeMap.mem_entries_iff.mp hmem)
  simp only [edge, hkinds]

end Outputs

/-- **The join is exact.** Whatever the maps of a side hold, the join succeeds iff no counted id
lacks anything, and then it gives one edge for each counted id, ascending, with what the maps hold
there. Otherwise it fails with the fault of the smallest id that has one: the kind is looked for
first, then the count is checked, then the reuse count is looked for. What the other maps hold at an
id that is not counted has no influence. -/
theorem resolve_is_exact_join (s : Inputs) (o : Outputs) :
    ExactJoin s.channels InputEdge.id s.Holds s.Complete s.Faulty s.resolve ∧
    (∀ s', s.AlikeWhereCounted s' → s.resolve = s'.resolve) ∧
    ExactJoin o.subpartitions OutputEdge.id o.Holds o.Complete o.Faulty o.resolve ∧
    ∀ o', o.AlikeWhereCounted o' → o.resolve = o'.resolve :=
  ⟨s.exactJoin, fun _ => Inputs.resolve_eq_of_alike, o.exactJoin,
    fun _ => Outputs.resolve_eq_of_alike⟩

/-- Edge 5 lacks its kind and its channels, and edge 7 its reuse count. Edge 2 is not counted. -/
example : Inputs.resolve
    ⟨.ofList [(⟨7⟩, 4), (⟨5⟩, 0)], .ofList [(⟨2⟩, 1)], .ofList [(⟨7⟩, .blocking)]⟩ =
      .error (.badEdge ⟨5⟩ .missingKind) := rfl

end BufferPlan
