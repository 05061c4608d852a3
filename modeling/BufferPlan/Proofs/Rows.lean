import BufferPlan.Proofs.Join

/-!
# Sides put together row by row

A side of a task is put together by calls that write one edge to all of its maps at the same time (a
row). A later call may replace what an earlier one wrote. After a run of calls each id has the
**last** row that was written for it (`lastAt?`), in all maps, and nothing else of the run is left.
So the maps are in step, no kind and no reuse count is missing, and the one fault that the join can
find is a count of zero.

* `records_foldl`: what one call keeps, a run of calls keeps; `Inputs.Records.put` and
  `Outputs.Records.put` are the steps.
* `Inputs.Records.faulty_iff`, `Outputs.Records.faulty_iff`: the one fault.
* `ExactJoin.joinsRows`: how the join ends, in terms of rows.
* **`rows_keep_last`**: all of it, for every run of calls on either side.
-/

namespace BufferPlan

section

variable {ρ σ α β : Type} {rowId : ρ → EdgeId} {row? : EdgeId → Option ρ}

/-! ## A run of calls -/

/-- **A run of calls leaves the last row of every id**, if one call replaces the row of its id. -/
theorem records_foldl {Records : σ → (EdgeId → Option ρ) → Prop} {put : σ → ρ → σ} {start : σ}
    (hstart : Records start fun _ => none)
    (hput : ∀ s row? r, Records s row? →
      Records (put s r) (Function.update row? (rowId r) (some r)))
    (rows : List ρ) : Records (rows.foldl put start) (lastAt? rowId rows) := by
  induction rows using List.reverseRecOn with
  | nil => exact hstart
  | append_singleton rows r ih =>
    rw [List.foldl_concat, lastAt?_concat]
    exact hput _ _ r ih

/-- Where calls of different ids may change places, a run without a repeated id may take place in
any order. -/
theorem foldl_eq_of_perm {put : σ → ρ → σ}
    (hcomm : ∀ s r q, rowId r ≠ rowId q → put (put s r) q = put (put s q) r) {rows rows' : List ρ}
    (hnodup : (rows.map rowId).Nodup) (hperm : rows.Perm rows') (start : σ) :
    rows.foldl put start = rows'.foldl put start := by
  refine hperm.foldl_eq' (fun r hr q hq s => ?_) start
  by_cases h : rowId r = rowId q
  · rw [List.inj_on_of_nodup_map hnodup hr hq h]
  · exact hcomm s r q h

/-- A call writes its part of the row to a map that has the parts of the rows. -/
theorem EdgeMap.get?_insert_part {m : EdgeMap α} {part : ρ → α}
    (h : ∀ i, m.get? i = (row? i).map part) (r : ρ) (i : EdgeId) :
    (m.insert (rowId r) (part r)).get? i =
      (Function.update row? (rowId r) (some r) i).map part := by
  rw [get?_insert, Function.update_apply]
  split
  · rfl
  · exact h i

/-- Rows stand at their own ids. -/
theorem own_update (h : ∀ i r, row? i = some r → rowId r = i) (q : ρ) (i : EdgeId) (r : ρ)
    (hr : Function.update row? (rowId q) (some q) i = some r) : rowId r = i := by
  rw [Function.update_apply] at hr
  split at hr
  · rename_i hi
    rw [hi, Option.some.inj hr]
  · exact h i r hr

theorem EdgeMap.exists_get?_iff_of_part {m : EdgeMap α} {part : ρ → α}
    (h : ∀ i, m.get? i = (row? i).map part) (i : EdgeId) :
    (∃ a, m.get? i = some a) ↔ ∃ r, row? i = some r := by
  rw [h]
  cases row? i <;> simp

/-- A map has as many entries as there are different ids. -/
theorem EdgeMap.size_eq_length_dedup {m : EdgeMap α} {ids : List EdgeId}
    (h : ∀ i, (∃ a, m.get? i = some a) ↔ i ∈ ids) : m.size = ids.dedup.length := by
  have hperm : (m.entries.map Prod.fst).Perm ids.dedup := by
    refine (List.perm_ext_iff_of_nodup m.nodup_entries ids.nodup_dedup).mpr fun i => ?_
    rw [mem_ids_iff, List.mem_dedup, h]
  rw [← hperm.length_eq, List.length_map]
  rfl

/-! ## The join of rows -/

/-- How a join ends where each id has a row: the one fault is a count of zero, and without it the
join lists the rows. -/
structure JoinsRows (row? : EdgeId → Option ρ) (rowId : ρ → EdgeId) (count : ρ → UInt32)
    (zero : EdgeFault) (id : β → EdgeId) (row : β → ρ) (outcome : Except PlanError (List β)) :
    Prop where
  succeeds : (∃ l, outcome = .ok l) ↔ ∀ i r, row? i = some r → count r ≠ 0
  ok_iff : ∀ l, outcome = .ok l ↔
    (l.Pairwise fun a b => id a < id b) ∧ ∀ r, r ∈ l.map row ↔ row? (rowId r) = some r
  /-- It fails with the smallest id whose count is zero. -/
  error_iff : ∀ x, outcome = .error x ↔
    ∃ i r, row? i = some r ∧ count r = 0 ∧ (∀ j q, j < i → row? j = some q → count q ≠ 0) ∧
      x = .badEdge i zero

variable {counts : EdgeMap UInt32} {count : ρ → UInt32} {zero : EdgeFault} {id : β → EdgeId}
  {row : β → ρ} {Held : β → Prop}

/-- The list of a join, where an element is held if its row is that of its id: it ascends and has
every row. -/
theorem joined_iff_rows (hid : ∀ b, rowId (row b) = id b) (hinj : Function.Injective row)
    (hheld : ∀ b, Held b ↔ row? (id b) = some (row b))
    (hown : ∀ i r, row? i = some r → rowId r = i)
    (hcounts : ∀ i, counts.get? i = (row? i).map count) {l : List β} :
    Joined counts id Held l ↔
      (l.Pairwise fun a b => id a < id b) ∧ ∀ r, r ∈ l.map row ↔ row? (rowId r) = some r := by
  have hcounted := EdgeMap.exists_get?_iff_of_part hcounts
  constructor
  · intro h
    refine ⟨h.ascending, fun r => ?_⟩
    rw [List.mem_map]
    constructor
    · rintro ⟨b, hb, rfl⟩
      rw [hid]
      exact (hheld b).mp ((h.mem_iff b).mp hb)
    · intro hr
      obtain ⟨n, hn⟩ := (hcounted (rowId r)).mpr ⟨r, hr⟩
      obtain ⟨b, hb, hbr⟩ := h.counted _ n hn
      have hrow := (hheld b).mp ((h.mem_iff b).mp hb)
      rw [hbr, hr] at hrow
      exact ⟨b, hb, (Option.some.inj hrow).symm⟩
  · rintro ⟨hascending, hrows⟩
    have hmem : ∀ b, b ∈ l ↔ Held b := by
      intro b
      rw [hheld, ← hid, ← hrows, List.mem_map_of_injective hinj]
    refine .of_ascending hascending (fun i => ?_) hmem
    rw [hcounted]
    constructor
    · rintro ⟨b, hb, rfl⟩
      exact ⟨row b, (hheld b).mp ((hmem b).mp hb)⟩
    · rintro ⟨r, hr⟩
      obtain rfl := hown i r hr
      obtain ⟨b, hb, rfl⟩ := List.mem_map.mp ((hrows r).mpr hr)
      exact ⟨b, hb, (hid b).symm⟩

/-- **How the join ends, in terms of rows.** -/
theorem ExactJoin.joinsRows {Complete : Prop} {Faulty : EdgeId → EdgeFault → Prop}
    {outcome : Except PlanError (List β)}
    (h : ExactJoin counts id Held Complete Faulty outcome)
    (hcomplete : Complete ↔ ∀ i f, ¬ Faulty i f)
    (hfaulty : ∀ i f, Faulty i f ↔ f = zero ∧ ∃ r, row? i = some r ∧ count r = 0)
    (hid : ∀ b, rowId (row b) = id b) (hinj : Function.Injective row)
    (hheld : ∀ b, Held b ↔ row? (id b) = some (row b))
    (hown : ∀ i r, row? i = some r → rowId r = i)
    (hcounts : ∀ i, counts.get? i = (row? i).map count) :
    JoinsRows row? rowId count zero id row outcome where
  succeeds := by
    rw [h.succeeds, hcomplete]
    simp only [hfaulty]
    constructor
    · intro hnone i r hr h0
      exact hnone i zero ⟨rfl, r, hr, h0⟩
    · rintro hpos i f ⟨-, r, hr, h0⟩
      exact hpos i r hr h0
  ok_iff l := (h.ok_iff l).trans (joined_iff_rows hid hinj hheld hown hcounts)
  error_iff x := by
    rw [h.error_iff]
    simp only [hfaulty]
    constructor
    · rintro ⟨i, f, ⟨rfl, r, hr, h0⟩, hfirst, rfl⟩
      exact ⟨i, r, hr, h0, fun j q hj hq hq0 => hfirst j hj _ ⟨rfl, q, hq, hq0⟩, rfl⟩
    · rintro ⟨i, r, hr, h0, hfirst, rfl⟩
      refine ⟨i, zero, ⟨rfl, r, hr, h0⟩, ?_, rfl⟩
      rintro j hj g ⟨-, q, hq, hq0⟩
      exact hfirst j q hj hq hq0

end

/-! ## Inputs -/

/-- What a call writes of an input edge. Nothing of it is checked. -/
structure InputRow where
  id : EdgeId
  kind : Kind
  channels : UInt32
  reuse : UInt32
deriving DecidableEq, Repr

/-- The row of an edge. -/
def InputEdge.row (e : InputEdge) : InputRow := ⟨e.id, e.kind, e.channels.val, e.reuse⟩

theorem InputEdge.row_injective : Function.Injective InputEdge.row := by
  rintro ⟨i, k, ⟨n, hn⟩, r⟩ ⟨i', k', ⟨n', hn'⟩, r'⟩ h
  obtain ⟨rfl, rfl, rfl, rfl⟩ := InputRow.mk.inj h
  rfl

namespace Inputs

/-- One call. -/
def put (s : Inputs) (r : InputRow) : Inputs := s.insert r.id r.kind r.channels r.reuse

/-- What a run of calls makes of the side without edges. -/
def ofRows (rows : List InputRow) : Inputs := rows.foldl put {}

/-- Each map has its part of the row of an id, and nothing where there is no row. -/
structure Records (s : Inputs) (row? : EdgeId → Option InputRow) : Prop where
  channels : ∀ i, s.channels.get? i = (row? i).map InputRow.channels
  reuse : ∀ i, s.reuse.get? i = (row? i).map InputRow.reuse
  kinds : ∀ i, s.kinds.get? i = (row? i).map InputRow.kind
  own : ∀ i r, row? i = some r → r.id = i

variable {s s' : Inputs} {row? : EdgeId → Option InputRow}

namespace Records

/-- **One call replaces the row of its id**, in all maps. -/
theorem put (h : s.Records row?) (r : InputRow) :
    (s.put r).Records (Function.update row? r.id (some r)) where
  channels := EdgeMap.get?_insert_part h.channels r
  reuse := EdgeMap.get?_insert_part h.reuse r
  kinds := EdgeMap.get?_insert_part h.kinds r
  own := own_update h.own r

/-- The maps are known from the rows. -/
theorem eq (h : s.Records row?) (h' : s'.Records row?) : s = s' := by
  obtain ⟨channels, reuse, kinds⟩ := s
  obtain ⟨channels', reuse', kinds'⟩ := s'
  obtain rfl : channels = channels' :=
    EdgeMap.ext_get? fun i => (h.channels i).trans (h'.channels i).symm
  obtain rfl : reuse = reuse' := EdgeMap.ext_get? fun i => (h.reuse i).trans (h'.reuse i).symm
  obtain rfl : kinds = kinds' := EdgeMap.ext_get? fun i => (h.kinds i).trans (h'.kinds i).symm
  rfl

/-- **The one fault is a count of zero.** -/
theorem faulty_iff (h : s.Records row?) (i : EdgeId) (f : EdgeFault) :
    s.Faulty i f ↔ f = .noChannels ∧ ∃ r, row? i = some r ∧ r.channels = 0 := by
  constructor
  · intro hf
    obtain ⟨n, hn⟩ := hf.counted
    rw [h.channels, Option.map_eq_some_iff] at hn
    obtain ⟨r, hr, -⟩ := hn
    cases hf with
    | missingKind _ hk => simp [h.kinds, hr] at hk
    | noChannels h0 _ =>
      rw [h.channels, hr] at h0
      exact ⟨rfl, r, hr, Option.some.inj h0⟩
    | missingReuse _ _ _ hreuse => simp [h.reuse, hr] at hreuse
  · rintro ⟨rfl, r, hr, h0⟩
    exact .noChannels (by rw [h.channels, hr, Option.map_some, h0])
      (by rw [h.kinds, hr, Option.map_some])

/-- An edge is held if its row is that of its id. -/
theorem holds_iff (h : s.Records row?) (e : InputEdge) :
    s.Holds e ↔ row? e.id = some e.row := by
  constructor
  · rintro ⟨hn, hk, hreuse⟩
    rw [h.channels, Option.map_eq_some_iff] at hn
    obtain ⟨r, hr, hn⟩ := hn
    rw [h.kinds, hr] at hk
    rw [h.reuse, hr] at hreuse
    have hrow : r = e.row := by
      obtain ⟨i, k, n, reuse⟩ := r
      obtain rfl : i = e.id := h.own _ _ hr
      obtain rfl := Option.some.inj hk
      obtain rfl := Option.some.inj hreuse
      obtain rfl : n = e.channels.val := hn
      rfl
    rw [hr, hrow]
  · intro hr
    exact ⟨by rw [h.channels, hr]; rfl, by rw [h.kinds, hr]; rfl, by rw [h.reuse, hr]; rfl⟩

theorem joinsRows (h : s.Records row?) :
    JoinsRows row? InputRow.id InputRow.channels .noChannels InputEdge.id InputEdge.row s.resolve :=
  s.exactJoin.joinsRows complete_iff_not_faulty h.faulty_iff (fun _ => rfl)
    InputEdge.row_injective h.holds_iff h.own h.channels

end Records

/-- A run of calls leaves the last row of every id. -/
theorem records_ofRows (rows : List InputRow) :
    (ofRows rows).Records (lastAt? InputRow.id rows) :=
  records_foldl ⟨fun _ => rfl, fun _ => rfl, fun _ => rfl, by rintro _ _ ⟨⟩⟩
    (fun _ _ r h => h.put r) rows

theorem put_comm (s : Inputs) {r q : InputRow} (h : r.id ≠ q.id) :
    (s.put r).put q = (s.put q).put r := by
  simp only [put, insert, EdgeMap.insert_comm h]

theorem put_put (s : Inputs) {r q : InputRow} (h : r.id = q.id) : (s.put r).put q = s.put q := by
  simp only [put, insert, h, EdgeMap.insert_insert]

/-- What a run of calls leaves of a side. -/
structure KeepsLast (rows : List InputRow) : Prop where
  /-- Each id has what the last call wrote for it, in all maps. -/
  records : (ofRows rows).Records (lastAt? InputRow.id rows)
  /-- The maps have the same ids. -/
  reuse : (ofRows rows).reuse.entries.map Prod.fst = (ofRows rows).channels.entries.map Prod.fst
  kinds : (ofRows rows).kinds.entries.map Prod.fst = (ofRows rows).channels.entries.map Prod.fst
  /-- There are as many edges as different ids. -/
  size : (ofRows rows).size = (rows.map InputRow.id).dedup.length
  /-- A run with the same last rows makes the same side. -/
  determined : ∀ rows', (∀ i, lastAt? InputRow.id rows i = lastAt? InputRow.id rows' i) →
    ofRows rows = ofRows rows'
  /-- A run without a repeated id makes the same side in any order. -/
  anyOrder : (rows.map InputRow.id).Nodup → ∀ rows', rows.Perm rows' → ofRows rows = ofRows rows'
  /-- The join finds the smallest id whose last count is zero, or lists the last rows. -/
  joins : JoinsRows (lastAt? InputRow.id rows) InputRow.id InputRow.channels .noChannels
    InputEdge.id InputEdge.row (ofRows rows).resolve

theorem keepsLast (rows : List InputRow) : KeepsLast rows := by
  have h := records_ofRows rows
  have hchannels := EdgeMap.exists_get?_iff_of_part h.channels
  constructor
  case records => exact h
  case reuse =>
    exact EdgeMap.ids_eq fun i =>
      (EdgeMap.exists_get?_iff_of_part h.reuse i).trans (hchannels i).symm
  case kinds =>
    exact EdgeMap.ids_eq fun i =>
      (EdgeMap.exists_get?_iff_of_part h.kinds i).trans (hchannels i).symm
  case size =>
    exact EdgeMap.size_eq_length_dedup fun i => (hchannels i).trans exists_lastAt?_iff
  case determined =>
    intro rows' hlast
    rw [funext hlast] at h
    exact h.eq (records_ofRows rows')
  case anyOrder =>
    intro hnodup rows' hperm
    exact foldl_eq_of_perm (fun s _ _ hne => put_comm s hne) hnodup hperm ({} : Inputs)
  case joins => exact h.joinsRows

end Inputs

/-! ## Outputs -/

/-- What a call writes of an output edge. Nothing of it is checked. -/
structure OutputRow where
  id : EdgeId
  kind : Kind
  subpartitions : UInt32
deriving DecidableEq, Repr

/-- The row of an edge. -/
def OutputEdge.row (e : OutputEdge) : OutputRow := ⟨e.id, e.kind, e.subpartitions.val⟩

theorem OutputEdge.row_injective : Function.Injective OutputEdge.row := by
  rintro ⟨i, k, ⟨n, hn⟩⟩ ⟨i', k', ⟨n', hn'⟩⟩ h
  obtain ⟨rfl, rfl, rfl⟩ := OutputRow.mk.inj h
  rfl

namespace Outputs

/-- One call. -/
def put (s : Outputs) (r : OutputRow) : Outputs := s.insert r.id r.kind r.subpartitions

/-- What a run of calls makes of the side without edges. -/
def ofRows (rows : List OutputRow) : Outputs := rows.foldl put {}

/-- Each map has its part of the row of an id, and nothing where there is no row. -/
structure Records (s : Outputs) (row? : EdgeId → Option OutputRow) : Prop where
  subpartitions : ∀ i, s.subpartitions.get? i = (row? i).map OutputRow.subpartitions
  kinds : ∀ i, s.kinds.get? i = (row? i).map OutputRow.kind
  own : ∀ i r, row? i = some r → r.id = i

variable {s s' : Outputs} {row? : EdgeId → Option OutputRow}

namespace Records

/-- **One call replaces the row of its id**, in both maps. -/
theorem put (h : s.Records row?) (r : OutputRow) :
    (s.put r).Records (Function.update row? r.id (some r)) where
  subpartitions := EdgeMap.get?_insert_part h.subpartitions r
  kinds := EdgeMap.get?_insert_part h.kinds r
  own := own_update h.own r

/-- The maps are known from the rows. -/
theorem eq (h : s.Records row?) (h' : s'.Records row?) : s = s' := by
  obtain ⟨subpartitions, kinds⟩ := s
  obtain ⟨subpartitions', kinds'⟩ := s'
  obtain rfl : subpartitions = subpartitions' :=
    EdgeMap.ext_get? fun i => (h.subpartitions i).trans (h'.subpartitions i).symm
  obtain rfl : kinds = kinds' := EdgeMap.ext_get? fun i => (h.kinds i).trans (h'.kinds i).symm
  rfl

/-- **The one fault is a count of zero.** -/
theorem faulty_iff (h : s.Records row?) (i : EdgeId) (f : EdgeFault) :
    s.Faulty i f ↔ f = .noSubpartitions ∧ ∃ r, row? i = some r ∧ r.subpartitions = 0 := by
  constructor
  · intro hf
    obtain ⟨n, hn⟩ := hf.counted
    rw [h.subpartitions, Option.map_eq_some_iff] at hn
    obtain ⟨r, hr, -⟩ := hn
    cases hf with
    | missingKind _ hk => simp [h.kinds, hr] at hk
    | noSubpartitions h0 _ =>
      rw [h.subpartitions, hr] at h0
      exact ⟨rfl, r, hr, Option.some.inj h0⟩
  · rintro ⟨rfl, r, hr, h0⟩
    exact .noSubpartitions (by rw [h.subpartitions, hr, Option.map_some, h0])
      (by rw [h.kinds, hr, Option.map_some])

/-- An edge is held if its row is that of its id. -/
theorem holds_iff (h : s.Records row?) (e : OutputEdge) :
    s.Holds e ↔ row? e.id = some e.row := by
  constructor
  · rintro ⟨hn, hk⟩
    rw [h.subpartitions, Option.map_eq_some_iff] at hn
    obtain ⟨r, hr, hn⟩ := hn
    rw [h.kinds, hr] at hk
    have hrow : r = e.row := by
      obtain ⟨i, k, n⟩ := r
      obtain rfl : i = e.id := h.own _ _ hr
      obtain rfl := Option.some.inj hk
      obtain rfl : n = e.subpartitions.val := hn
      rfl
    rw [hr, hrow]
  · intro hr
    exact ⟨by rw [h.subpartitions, hr]; rfl, by rw [h.kinds, hr]; rfl⟩

theorem joinsRows (h : s.Records row?) :
    JoinsRows row? OutputRow.id OutputRow.subpartitions .noSubpartitions OutputEdge.id
      OutputEdge.row s.resolve :=
  s.exactJoin.joinsRows complete_iff_not_faulty h.faulty_iff (fun _ => rfl)
    OutputEdge.row_injective h.holds_iff h.own h.subpartitions

end Records

/-- A run of calls leaves the last row of every id. -/
theorem records_ofRows (rows : List OutputRow) :
    (ofRows rows).Records (lastAt? OutputRow.id rows) :=
  records_foldl ⟨fun _ => rfl, fun _ => rfl, by rintro _ _ ⟨⟩⟩ (fun _ _ r h => h.put r) rows

theorem put_comm (s : Outputs) {r q : OutputRow} (h : r.id ≠ q.id) :
    (s.put r).put q = (s.put q).put r := by
  simp only [put, insert, EdgeMap.insert_comm h]

theorem put_put (s : Outputs) {r q : OutputRow} (h : r.id = q.id) : (s.put r).put q = s.put q := by
  simp only [put, insert, h, EdgeMap.insert_insert]

/-- What a run of calls leaves of a side. -/
structure KeepsLast (rows : List OutputRow) : Prop where
  /-- Each id has what the last call wrote for it, in both maps. -/
  records : (ofRows rows).Records (lastAt? OutputRow.id rows)
  /-- The maps have the same ids. -/
  kinds :
    (ofRows rows).kinds.entries.map Prod.fst = (ofRows rows).subpartitions.entries.map Prod.fst
  /-- There are as many edges as different ids. -/
  size : (ofRows rows).size = (rows.map OutputRow.id).dedup.length
  /-- A run with the same last rows makes the same side. -/
  determined : ∀ rows', (∀ i, lastAt? OutputRow.id rows i = lastAt? OutputRow.id rows' i) →
    ofRows rows = ofRows rows'
  /-- A run without a repeated id makes the same side in any order. -/
  anyOrder : (rows.map OutputRow.id).Nodup → ∀ rows', rows.Perm rows' → ofRows rows = ofRows rows'
  /-- The join finds the smallest id whose last count is zero, or lists the last rows. -/
  joins : JoinsRows (lastAt? OutputRow.id rows) OutputRow.id OutputRow.subpartitions
    .noSubpartitions OutputEdge.id OutputEdge.row (ofRows rows).resolve

theorem keepsLast (rows : List OutputRow) : KeepsLast rows := by
  have h := records_ofRows rows
  have hsubpartitions := EdgeMap.exists_get?_iff_of_part h.subpartitions
  constructor
  case records => exact h
  case kinds =>
    exact EdgeMap.ids_eq fun i =>
      (EdgeMap.exists_get?_iff_of_part h.kinds i).trans (hsubpartitions i).symm
  case size =>
    exact EdgeMap.size_eq_length_dedup fun i => (hsubpartitions i).trans exists_lastAt?_iff
  case determined =>
    intro rows' hlast
    rw [funext hlast] at h
    exact h.eq (records_ofRows rows')
  case anyOrder =>
    intro hnodup rows' hperm
    exact foldl_eq_of_perm (fun s _ _ hne => put_comm s hne) hnodup hperm ({} : Outputs)
  case joins => exact h.joinsRows

end Outputs

/-- **A run of calls leaves the last row of every id and nothing else.** The maps of the side have
the same ids, those of the calls, and each holds what the last call of an id wrote, so the side
follows from the last rows. Calls of different ids may change places, and of two calls of one id the
second leaves nothing of the first. The join of such a side never lacks a kind or a reuse count: it
fails iff some last count is zero, with the smallest id of that kind, and lists the last rows
otherwise. -/
theorem rows_keep_last :
    (∀ rows, Inputs.KeepsLast rows) ∧
    (∀ (s : Inputs) r q, (r.id ≠ q.id → (s.put r).put q = (s.put q).put r) ∧
      (r.id = q.id → (s.put r).put q = s.put q)) ∧
    (∀ rows, Outputs.KeepsLast rows) ∧
    ∀ (s : Outputs) r q, (r.id ≠ q.id → (s.put r).put q = (s.put q).put r) ∧
      (r.id = q.id → (s.put r).put q = s.put q) :=
  ⟨Inputs.keepsLast, fun s _ _ => ⟨s.put_comm, s.put_put⟩, Outputs.keepsLast,
    fun s _ _ => ⟨s.put_comm, s.put_put⟩⟩

/-- The zero that was written for edge 3 first is not seen, the one for edge 8 is. -/
example : (Outputs.ofRows [⟨⟨3⟩, .blocking, 0⟩, ⟨⟨8⟩, .blocking, 2⟩, ⟨⟨3⟩, .pipelined, 5⟩,
    ⟨⟨8⟩, .blocking, 0⟩]).resolve = .error (.badEdge ⟨8⟩ .noSubpartitions) := rfl

end BufferPlan
