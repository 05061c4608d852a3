import BufferPlan.Edge.Id

/-!
# Edge maps

A task descriptor carries its edges as maps keyed by edge id. An `EdgeMap` is a list of entries
**strictly ascending by id**, with the order as a field, so a map is determined by what it holds
and its entries are the order in which edges are visited.

* `EdgeMap.insert` writes one entry, replacing an older one of the same id.
* `EdgeMap.ofList` inserts from left to right, so the last entry of an id wins.
* `get?_insert`, `get?_erase`: what a read gives after a write and after an erasure.
* `ext_get?`: a map is determined by what is read from it.
-/

namespace BufferPlan

/-- Strictly ascending by id. -/
def Ascending {α : Type} (l : List (EdgeId × α)) : Prop := l.Pairwise fun a b => a.1 < b.1

/-- A finite map from edge ids. -/
structure EdgeMap (α : Type) where
  entries : List (EdgeId × α)
  ascending : Ascending entries

namespace EdgeMap

variable {α : Type}

/-- The map without entries. -/
def empty : EdgeMap α := ⟨[], List.Pairwise.nil⟩

instance : EmptyCollection (EdgeMap α) := ⟨empty⟩

instance : Inhabited (EdgeMap α) := ⟨empty⟩

/-! ## Writing an entry -/

/-- The entries with the one for `id` put in its place. -/
def insertEntry (id : EdgeId) (a : α) : List (EdgeId × α) → List (EdgeId × α)
  | [] => [(id, a)]
  | (i, b) :: rest =>
    if id < i then (id, a) :: (i, b) :: rest
    else if id = i then (id, a) :: rest
    else (i, b) :: insertEntry id a rest

theorem mem_insertEntry {id : EdgeId} {a : α} {l : List (EdgeId × α)} {e : EdgeId × α}
    (h : e ∈ insertEntry id a l) : e = (id, a) ∨ e ∈ l := by
  induction l with
  | nil => exact Or.inl (List.mem_singleton.mp h)
  | cons x rest ih =>
    obtain ⟨i, b⟩ := x
    simp only [insertEntry] at h
    split at h
    · exact List.mem_cons.mp h
    · split at h
      · rcases List.mem_cons.mp h with h | h
        · exact Or.inl h
        · exact Or.inr (List.mem_cons_of_mem _ h)
      · rcases List.mem_cons.mp h with h | h
        · exact Or.inr (h ▸ List.mem_cons_self)
        · rcases ih h with h | h
          · exact Or.inl h
          · exact Or.inr (List.mem_cons_of_mem _ h)

theorem ascending_insertEntry (id : EdgeId) (a : α) {l : List (EdgeId × α)} (h : Ascending l) :
    Ascending (insertEntry id a l) := by
  induction l with
  | nil => exact List.pairwise_singleton _ _
  | cons x rest ih =>
    obtain ⟨i, b⟩ := x
    obtain ⟨hhead, htail⟩ := List.pairwise_cons.mp h
    simp only [insertEntry]
    split
    · rename_i hlt
      refine List.pairwise_cons.mpr ⟨fun e he => ?_, h⟩
      rcases List.mem_cons.mp he with rfl | he
      · exact hlt
      · exact EdgeId.lt_trans hlt (hhead e he)
    · split
      · rename_i heq
        subst heq
        exact List.pairwise_cons.mpr ⟨hhead, htail⟩
      · rename_i hlt hne
        refine List.pairwise_cons.mpr ⟨fun e he => ?_, ih htail⟩
        rcases mem_insertEntry he with rfl | he
        · exact EdgeId.lt_of_not_lt_of_ne hlt hne
        · exact hhead e he

/-- The map with `a` at `id`. -/
def insert (m : EdgeMap α) (id : EdgeId) (a : α) : EdgeMap α :=
  ⟨insertEntry id a m.entries, ascending_insertEntry id a m.ascending⟩

/-- The map without an entry at `id`. -/
def erase (m : EdgeMap α) (id : EdgeId) : EdgeMap α :=
  ⟨m.entries.filter fun e => e.1 ≠ id, m.ascending.filter _⟩

/-- The map that holds, for each id of the list, its last value. -/
def ofList (l : List (EdgeId × α)) : EdgeMap α := l.foldl (fun m e => m.insert e.1 e.2) empty

/-! ## Reading -/

/-- The value at `id`. -/
def get? (m : EdgeMap α) (id : EdgeId) : Option α := m.entries.lookup id

/-- The number of entries. -/
def size (m : EdgeMap α) : Nat := m.entries.length

/-- The map has no entries. -/
def isEmpty (m : EdgeMap α) : Bool := m.entries.isEmpty

/-! ## What a read gives -/

/-- Maps with the same entries are equal. -/
theorem ext {m n : EdgeMap α} (h : m.entries = n.entries) : m = n := by
  obtain ⟨l, hl⟩ := m
  subst h
  rfl

theorem lookup_cons (i j : EdgeId) (b : α) (rest : List (EdgeId × α)) :
    ((i, b) :: rest).lookup j = if j = i then some b else rest.lookup j := by
  rw [List.lookup_cons]
  by_cases h : j = i
  · rw [if_pos h, beq_iff_eq.mpr h]
  · rw [if_neg h, beq_false_of_ne h]

theorem lookup_insertEntry (id : EdgeId) (a : α) (l : List (EdgeId × α)) (j : EdgeId) :
    (insertEntry id a l).lookup j = if j = id then some a else l.lookup j := by
  induction l with
  | nil => rw [insertEntry, lookup_cons]
  | cons x rest ih =>
    obtain ⟨i, b⟩ := x
    simp only [insertEntry]
    split
    · rw [lookup_cons]
    · split
      · rename_i heq
        subst heq
        simp only [lookup_cons]
        by_cases h : j = id
        · rw [if_pos h, if_pos h]
        · rw [if_neg h, if_neg h, if_neg h]
      · rename_i hne
        rw [lookup_cons, lookup_cons, ih]
        by_cases h : j = i
        · subst h
          rw [if_pos rfl, if_pos rfl, if_neg (Ne.symm hne)]
        · rw [if_neg h, if_neg h]

/-- Nothing is found below the ids of a list. -/
theorem lookup_eq_none {l : List (EdgeId × α)} {j : EdgeId} (h : ∀ e ∈ l, j < e.1) :
    l.lookup j = none := by
  rw [List.lookup_eq_none_iff]
  intro e he
  have : j ≠ e.1 := fun heq => EdgeId.lt_irrefl _ (heq ▸ h e he)
  simpa using this

/-- Ascending lists in which the same is found are equal. -/
theorem eq_of_lookup_eq : ∀ {l m : List (EdgeId × α)}, Ascending l → Ascending m →
    (∀ j, l.lookup j = m.lookup j) → l = m
  | [], [], _, _, _ => rfl
  | [], (i, b) :: rest, _, _, h => by
    have := h i
    rw [lookup_cons, if_pos rfl] at this
    exact absurd this (by simp)
  | (i, a) :: rest, [], _, _, h => by
    have := h i
    rw [lookup_cons, if_pos rfl] at this
    exact absurd this (by simp)
  | (i, a) :: l, (k, b) :: m, hl, hm, h => by
    obtain ⟨hi, hl'⟩ := List.pairwise_cons.mp hl
    obtain ⟨hk, hm'⟩ := List.pairwise_cons.mp hm
    by_cases hik : i = k
    · subst hik
      have hab := h i
      rw [lookup_cons, lookup_cons, if_pos rfl, if_pos rfl] at hab
      obtain rfl := Option.some.inj hab
      have hrest : ∀ j, l.lookup j = m.lookup j := fun j => by
        by_cases hj : j = i
        · subst hj
          rw [lookup_eq_none hi, lookup_eq_none hk]
        · have := h j
          rwa [lookup_cons, lookup_cons, if_neg hj, if_neg hj] at this
      rw [eq_of_lookup_eq hl' hm' hrest]
    · by_cases hlt : i < k
      · have := h i
        rw [lookup_cons, lookup_cons, if_pos rfl, if_neg hik,
          lookup_eq_none fun e he => EdgeId.lt_trans hlt (hk e he)] at this
        exact absurd this (by simp)
      · have hki := EdgeId.lt_of_not_lt_of_ne hlt hik
        have := h k
        rw [lookup_cons, lookup_cons, if_pos rfl, if_neg (Ne.symm hik),
          lookup_eq_none fun e he => EdgeId.lt_trans hki (hi e he)] at this
        exact absurd this (by simp)

@[simp] theorem get?_empty (j : EdgeId) : (∅ : EdgeMap α).get? j = none := rfl

/-- **Reading after a write.** -/
@[simp] theorem get?_insert (m : EdgeMap α) (id : EdgeId) (a : α) (j : EdgeId) :
    (m.insert id a).get? j = if j = id then some a else m.get? j :=
  lookup_insertEntry id a m.entries j

/-- **Reading after an erasure.** -/
@[simp] theorem get?_erase (m : EdgeMap α) (id j : EdgeId) :
    (m.erase id).get? j = if j = id then none else m.get? j := by
  obtain ⟨l, hl⟩ := m
  simp only [get?, erase]
  induction l with
  | nil => simp
  | cons x rest ih =>
    obtain ⟨i, b⟩ := x
    have ih := ih (List.pairwise_cons.mp hl).2
    by_cases hi : i = id
    · subst hi
      rw [List.filter_cons_of_neg (by simp), ih, lookup_cons]
      split <;> rfl
    · rw [List.filter_cons_of_pos (by simpa using hi), lookup_cons, ih, lookup_cons]
      by_cases hj : j = i
      · subst hj
        rw [if_pos rfl, if_pos rfl, if_neg hi]
      · rw [if_neg hj, if_neg hj]

/-- **Maps are equal if they hold the same values.** -/
theorem ext_get? {m n : EdgeMap α} (h : ∀ j, m.get? j = n.get? j) : m = n :=
  ext (eq_of_lookup_eq m.ascending n.ascending h)

/-- The entries of a map are its values. -/
theorem mem_entries_iff {m : EdgeMap α} {id : EdgeId} {a : α} :
    (id, a) ∈ m.entries ↔ m.get? id = some a := by
  obtain ⟨l, hl⟩ := m
  simp only [get?]
  induction l with
  | nil => simp
  | cons x rest ih =>
    obtain ⟨i, b⟩ := x
    obtain ⟨hi, hl⟩ := List.pairwise_cons.mp hl
    rw [List.mem_cons, lookup_cons, ih hl]
    by_cases h : id = i
    · subst h
      rw [if_pos rfl, lookup_eq_none hi]
      simp [eq_comm]
    · simp [h]

end EdgeMap

end BufferPlan
