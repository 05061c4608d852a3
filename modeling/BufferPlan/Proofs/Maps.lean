import BufferPlan.Edge.Map
import Mathlib.Data.List.Forall2
import Mathlib.Data.List.Induction
import Mathlib.Data.List.Nodup
import Mathlib.Data.List.Perm.Basic
import Mathlib.Data.Set.Function

/-!
# Union and renaming of edge maps

Two ways to make an edge map out of others are told apart from the planner: the union of two maps,
and a map whose ids are renamed. Both write the entries into a map one by one, so both follow from
what a run of writes gives. What is listed ascending by id is known as soon as its elements are.

* `eq_of_ascending`: lists that ascend by id and have the same elements are equal.
* `ascending_merge`: lists without a common id are merged into a list that ascends.
* `forall₂_of_map_eq`: lists with the same ids are related if what has one id is.
* `lastAt?`: the last element of a list that has an id, which is what a run of writes leaves.
* `EdgeMap.ids_eq`: maps that have values at the same ids list the same ids.
* `EdgeMap.get?_foldl_insert`: what is read after a run of writes.
* `EdgeMap.get?_ofList_eq_some_iff`: entries without a repeated id are read back from their map.
* `EdgeMap.get?_union`: what the union of two maps holds.
* `EdgeMap.get?_rename_eq_some_iff`: what a renamed map holds, if no two of its ids fall together.
-/

namespace BufferPlan

variable {α : Type}

/-! ## Lists that ascend by id -/

section

variable {id : α → EdgeId} {l m : List α}

/-- In a list that ascends by id none is repeated. -/
theorem nodup_map_of_ascending (h : l.Pairwise fun a b => id a < id b) : (l.map id).Nodup := by
  refine List.pairwise_map.mpr (h.imp fun hlt heq => ?_)
  rw [heq] at hlt
  exact EdgeId.lt_irrefl _ hlt

/-- **Lists that ascend by id and have the same elements are equal.** -/
theorem eq_of_ascending (hl : l.Pairwise fun a b => id a < id b)
    (hm : m.Pairwise fun a b => id a < id b) (h : ∀ a, a ∈ l ↔ a ∈ m) : l = m := by
  have hperm : l.Perm m :=
    (List.perm_ext_iff_of_nodup (nodup_map_of_ascending hl).of_map
      (nodup_map_of_ascending hm).of_map).mpr h
  refine hperm.eq_of_pairwise (fun a b _ _ hab hba => ?_) hl hm
  exact absurd (EdgeId.lt_trans hab hba) (EdgeId.lt_irrefl _)

/-- **Lists without a common id are merged into a list that ascends.** -/
theorem ascending_merge (hl : l.Pairwise fun a b => id a < id b)
    (hm : m.Pairwise fun a b => id a < id b) (hne : ∀ a ∈ l, ∀ b ∈ m, id a ≠ id b) :
    (l.merge m fun a b => id a ≤ id b).Pairwise fun a b => id a < id b := by
  have weaken {k : List α} (h : k.Pairwise fun a b => id a < id b) :
      k.Pairwise fun a b => decide (id a ≤ id b) = true :=
    h.imp fun hlt => decide_eq_true (EdgeId.le_iff.mpr (EdgeId.lt_iff.mp hlt).le)
  have hle :
      (l.merge m fun a b => id a ≤ id b).Pairwise fun a b => decide (id a ≤ id b) = true := by
    refine List.pairwise_merge ?_ ?_ l m (weaken hl) (weaken hm)
    · simp only [decide_eq_true_eq, EdgeId.le_iff]
      omega
    · simp only [Bool.or_eq_true, decide_eq_true_eq, EdgeId.le_iff]
      omega
  have hdistinct : (l.merge m fun a b => id a ≤ id b).Pairwise fun a b => id a ≠ id b := by
    rw [(List.merge_perm_append _).pairwise_iff fun h => h.symm, List.pairwise_append]
    exact ⟨List.pairwise_map.mp (nodup_map_of_ascending hl),
      List.pairwise_map.mp (nodup_map_of_ascending hm), hne⟩
  refine hle.imp₂ (fun a b hle hne => ?_) hdistinct
  rw [decide_eq_true_eq, EdgeId.le_iff] at hle
  rw [ne_eq, EdgeId.eq_iff] at hne
  rw [EdgeId.lt_iff]
  omega

/-- **Lists with the same ids are related** if what has one id is. -/
theorem forall₂_of_map_eq {β : Type} {id' : β → EdgeId} {m : List β} {R : α → β → Prop}
    (hids : l.map id = m.map id') (hR : ∀ a ∈ l, ∀ b ∈ m, id a = id' b → R a b) :
    List.Forall₂ R l m := by
  have hsame : List.Forall₂ (fun a b => id a = id' b) l m := by
    rw [← List.forall₂_map_right_iff, ← List.forall₂_map_left_iff, List.forall₂_eq_eq_eq]
    exact hids
  obtain ⟨hlength, hzip⟩ := List.forall₂_iff_zip.mp hsame
  refine List.forall₂_iff_zip.mpr ⟨hlength, fun {a b} hab => ?_⟩
  obtain ⟨ha, hb⟩ := List.of_mem_zip hab
  exact hR a ha b hb (hzip hab)

end

/-! ## The last of an id -/

section

variable {id : α → EdgeId} {l : List α} {i : EdgeId} {a : α}

/-- The last element of a list that has an id. -/
def lastAt? (id : α → EdgeId) (l : List α) (i : EdgeId) : Option α := l.findRev? fun a => id a = i

theorem lastAt?_concat (id : α → EdgeId) (l : List α) (a : α) :
    lastAt? id (l ++ [a]) = Function.update (lastAt? id l) (id a) (some a) := by
  funext i
  unfold lastAt?
  rw [Function.update_apply, List.findRev?_eq_find?_reverse, List.findRev?_eq_find?_reverse,
    List.reverse_concat, List.find?_cons]
  by_cases h : i = id a
  · simp [h]
  · simp [h, Ne.symm h]

theorem mem_of_lastAt? (h : lastAt? id l i = some a) : a ∈ l ∧ id a = i := by
  rw [lastAt?, List.findRev?_eq_find?_reverse] at h
  exact ⟨List.mem_reverse.mp (List.mem_of_find?_eq_some h), by simpa using List.find?_some h⟩

theorem exists_lastAt?_iff : (∃ a, lastAt? id l i = some a) ↔ i ∈ l.map id := by
  rw [← Option.isSome_iff_exists, lastAt?, List.findRev?_eq_find?_reverse, List.find?_isSome]
  simp

/-- Where no id is repeated, every element is the last of its id. -/
theorem lastAt?_eq_some_iff_of_nodup (h : (l.map id).Nodup) :
    lastAt? id l i = some a ↔ a ∈ l ∧ id a = i := by
  refine ⟨mem_of_lastAt?, ?_⟩
  rintro ⟨ha, rfl⟩
  obtain ⟨b, hb⟩ := exists_lastAt?_iff.mpr (List.mem_map_of_mem ha)
  obtain ⟨hmem, hid⟩ := mem_of_lastAt? hb
  rw [hb, List.inj_on_of_nodup_map h hmem ha hid]

end

namespace EdgeMap

theorem nodup_entries (m : EdgeMap α) : (m.entries.map Prod.fst).Nodup :=
  nodup_map_of_ascending m.ascending

theorem mem_ids_iff {m : EdgeMap α} {i : EdgeId} :
    i ∈ m.entries.map Prod.fst ↔ ∃ a, m.get? i = some a := by
  rw [List.mem_map]
  constructor
  · rintro ⟨⟨j, a⟩, hmem, rfl⟩
    exact ⟨a, mem_entries_iff.mp hmem⟩
  · rintro ⟨a, ha⟩
    exact ⟨(i, a), mem_entries_iff.mpr ha, rfl⟩

theorem not_mem_ids_erase (m : EdgeMap α) (i : EdgeId) : i ∉ (m.erase i).entries.map Prod.fst := by
  rw [mem_ids_iff, get?_erase, if_pos rfl]
  rintro ⟨a, ⟨⟩⟩

/-- **Maps that have values at the same ids list the same ids.** -/
theorem ids_eq {β : Type} {m : EdgeMap α} {n : EdgeMap β}
    (h : ∀ i, (∃ a, m.get? i = some a) ↔ ∃ b, n.get? i = some b) :
    m.entries.map Prod.fst = n.entries.map Prod.fst := by
  have hm : (m.entries.map Prod.fst).Pairwise (· < ·) := List.pairwise_map.mpr m.ascending
  have hn : (n.entries.map Prod.fst).Pairwise (· < ·) := List.pairwise_map.mpr n.ascending
  refine eq_of_ascending hm hn fun i => ?_
  rw [mem_ids_iff, mem_ids_iff]
  exact h i

/-! ## A run of writes -/

/-- Writes to different ids may change places. -/
theorem insert_comm {i j : EdgeId} (h : i ≠ j) (m : EdgeMap α) (a b : α) :
    (m.insert i a).insert j b = (m.insert j b).insert i a := by
  apply ext_get?
  intro k
  simp only [get?_insert]
  by_cases hi : k = i
  · subst hi
    rw [if_neg h, if_pos rfl, if_pos rfl]
  · rw [if_neg hi, if_neg hi]

/-- A second write to an id leaves nothing of the first. -/
theorem insert_insert (m : EdgeMap α) (i : EdgeId) (a b : α) :
    (m.insert i a).insert i b = m.insert i b := by
  apply ext_get?
  intro k
  simp only [get?_insert]
  by_cases hi : k = i
  · rw [if_pos hi, if_pos hi]
  · rw [if_neg hi, if_neg hi, if_neg hi]

/-- **What is read after a run of writes** is the last value that was written to the id. -/
theorem get?_foldl_insert (l : List (EdgeId × α)) (m : EdgeMap α) (j : EdgeId) :
    (l.foldl (fun m e => m.insert e.1 e.2) m).get? j =
      ((lastAt? Prod.fst l j).map Prod.snd).or (m.get? j) := by
  induction l using List.reverseRecOn with
  | nil => rfl
  | append_singleton l e ih =>
    rw [List.foldl_concat, get?_insert, ih, lastAt?_concat, Function.update_apply]
    split
    · rfl
    · rfl

theorem get?_ofList (l : List (EdgeId × α)) (j : EdgeId) :
    (ofList l).get? j = (lastAt? Prod.fst l j).map Prod.snd :=
  (get?_foldl_insert l empty j).trans Option.or_none

/-- **Entries without a repeated id are read back from their map.** -/
theorem get?_ofList_eq_some_iff {l : List (EdgeId × α)} (h : (l.map Prod.fst).Nodup) {j : EdgeId}
    {a : α} : (ofList l).get? j = some a ↔ (j, a) ∈ l := by
  rw [get?_ofList, Option.map_eq_some_iff]
  constructor
  · rintro ⟨e, he, rfl⟩
    obtain ⟨hmem, rfl⟩ := (lastAt?_eq_some_iff_of_nodup h).mp he
    exact hmem
  · intro hmem
    exact ⟨(j, a), (lastAt?_eq_some_iff_of_nodup h).mpr ⟨hmem, rfl⟩, rfl⟩

/-- Entries without a repeated id make the same map in every order. -/
theorem ofList_eq_of_perm {l l' : List (EdgeId × α)} (h : l.Perm l')
    (hnodup : (l.map Prod.fst).Nodup) : ofList l = ofList l' := by
  apply ext_get?
  intro j
  apply Option.ext
  intro a
  rw [get?_ofList_eq_some_iff hnodup, get?_ofList_eq_some_iff ((h.map Prod.fst).nodup hnodup),
    h.mem_iff]

/-- A map is what its entries write. -/
theorem ofList_entries (m : EdgeMap α) : ofList m.entries = m := by
  apply ext_get?
  intro j
  apply Option.ext
  intro a
  rw [get?_ofList_eq_some_iff m.nodup_entries, mem_entries_iff]

/-! ## Union -/

/-- The entries of both maps. Where both have an id, the second map decides. -/
def union (m n : EdgeMap α) : EdgeMap α := n.entries.foldl (fun m e => m.insert e.1 e.2) m

/-- **What the union of two maps holds.** -/
theorem get?_union (m n : EdgeMap α) (j : EdgeId) :
    (m.union n).get? j = (n.get? j).or (m.get? j) := by
  rw [union, get?_foldl_insert, ← get?_ofList, ofList_entries]

/-! ## Renaming -/

/-- The map with every id renamed. -/
def rename (f : EdgeId → EdgeId) (m : EdgeMap α) : EdgeMap α :=
  ofList (m.entries.map fun e => (f e.1, e.2))

variable {f : EdgeId → EdgeId} {S : Set EdgeId} {m : EdgeMap α}

/-- **What a renamed map holds**, if no two of its ids fall together. -/
theorem get?_rename_eq_some_iff (hf : S.InjOn f) (hm : ∀ i a, m.get? i = some a → i ∈ S)
    {j : EdgeId} {a : α} :
    (m.rename f).get? j = some a ↔ ∃ i, m.get? i = some a ∧ f i = j := by
  have hids : ∀ e ∈ m.entries, e.1 ∈ S := fun e he => hm e.1 e.2 (mem_entries_iff.mp he)
  have hnodup : ((m.entries.map fun e => (f e.1, e.2)).map Prod.fst).Nodup := by
    rw [List.map_map]
    refine List.pairwise_map.mpr ((List.pairwise_map.mp m.nodup_entries).imp_of_mem ?_)
    intro a b ha hb hne heq
    exact hne (hf (hids a ha) (hids b hb) heq)
  unfold rename
  rw [get?_ofList_eq_some_iff hnodup, List.mem_map]
  constructor
  · rintro ⟨⟨i, b⟩, hmem, heq⟩
    obtain ⟨rfl, rfl⟩ := Prod.mk.inj heq
    exact ⟨i, mem_entries_iff.mp hmem, rfl⟩
  · rintro ⟨i, hi, rfl⟩
    exact ⟨(i, a), mem_entries_iff.mpr hi, rfl⟩

/-- A renamed map holds at the new id what the map held at the old one. -/
theorem get?_rename (hf : S.InjOn f) (hm : ∀ i a, m.get? i = some a → i ∈ S) {i : EdgeId}
    (hi : i ∈ S) : (m.rename f).get? (f i) = m.get? i := by
  apply Option.ext
  intro a
  rw [get?_rename_eq_some_iff hf hm]
  constructor
  · rintro ⟨k, hk, heq⟩
    rwa [hf (hm k a hk) hi heq] at hk
  · intro ha
    exact ⟨i, ha, rfl⟩

end EdgeMap

end BufferPlan
