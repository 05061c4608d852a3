import BufferPlan.Edge.Map
import BufferPlan.Trace
import Mathlib.Data.List.Forall2

/-!
# Traversals that stop at the first error

A task is planned by traversals: each side is joined edge by edge, and then each edge gets its share.
This file says how a traversal in `Except` ends, and that the outcome of a traced run is the run of
the outcomes, so that everything below can be said about `Except` alone.

* `mapM_eq_ok_iff`: a traversal succeeds iff every element does, one result each.
* `mapM_eq_error_iff_find?`: its error is that of the first element at which there is one.
* `mapM_eq_error_iff`: over a list that ascends by id, that is the **smallest id** with an error.
* `Traced.outcome_bind`, `Traced.outcome_mapM`: outcomes compose.
-/

namespace BufferPlan

variable {ε α β : Type}

/-! ## One step -/

theorem bind_eq_ok_iff {x : Except ε α} {f : α → Except ε β} {b : β} :
    x >>= f = .ok b ↔ ∃ a, x = .ok a ∧ f a = .ok b := by
  cases x with
  | error e => simp [bind, Except.bind]
  | ok a => simp [bind, Except.bind]

theorem bind_eq_error_iff {x : Except ε α} {f : α → Except ε β} {e : ε} :
    x >>= f = .error e ↔ x = .error e ∨ ∃ a, x = .ok a ∧ f a = .error e := by
  cases x with
  | error e => simp [bind, Except.bind]
  | ok a => simp [bind, Except.bind]

theorem map_eq_ok_iff {x : Except ε α} {f : α → β} {b : β} :
    f <$> x = .ok b ↔ ∃ a, x = .ok a ∧ f a = b := by
  cases x with
  | error e => simp [Functor.map, Except.map]
  | ok a => simp [Functor.map, Except.map]

/-- A run that does not fail succeeds. -/
theorem exists_ok_iff {x : Except ε α} : (∃ a, x = .ok a) ↔ ∀ e, x ≠ .error e := by
  cases x with
  | error e => simp
  | ok a => simp

theorem not_isOk_iff {x : Except ε α} : (!x.isOk) = true ↔ ∃ e, x = .error e := by
  cases x with
  | error e => simp [Except.isOk, Except.toBool]
  | ok a => simp [Except.isOk, Except.toBool]

/-! ## A whole list -/

/-- A traversal succeeds iff every element does. -/
theorem mapM_eq_ok_iff {f : α → Except ε β} {l : List α} {bs : List β} :
    l.mapM f = .ok bs ↔ List.Forall₂ (fun a b => f a = .ok b) l bs := by
  induction l generalizing bs with
  | nil =>
    rw [List.mapM_nil, List.forall₂_nil_left_iff]
    exact ⟨fun h => (Except.ok.inj h).symm, fun h => h ▸ rfl⟩
  | cons a l ih =>
    rw [List.mapM_cons, bind_eq_ok_iff, List.forall₂_cons_left_iff]
    refine exists_congr fun b => ?_
    rw [bind_eq_ok_iff]
    constructor
    · rintro ⟨hb, cs, hcs, h⟩
      exact ⟨cs, hb, ih.mp hcs, (Except.ok.inj h).symm⟩
    · rintro ⟨cs, hb, hcs, rfl⟩
      exact ⟨hb, cs, ih.mpr hcs, rfl⟩

theorem exists_mapM_eq_ok_iff {f : α → Except ε β} {l : List α} :
    (∃ bs, l.mapM f = .ok bs) ↔ ∀ a ∈ l, ∃ b, f a = .ok b := by
  simp only [mapM_eq_ok_iff]
  induction l with
  | nil => simp
  | cons a l ih =>
    simp only [List.forall₂_cons_left_iff, List.forall_mem_cons, ← ih]
    constructor
    · rintro ⟨_, b, bs, hb, hbs, -⟩
      exact ⟨⟨b, hb⟩, bs, hbs⟩
    · rintro ⟨⟨b, hb⟩, bs, hbs⟩
      exact ⟨_, b, bs, hb, hbs, rfl⟩

/-- Steps that agree on the elements of a list traverse it in the same way. -/
theorem mapM_congr {f g : α → Except ε β} {l : List α} (h : ∀ a ∈ l, f a = g a) :
    l.mapM f = l.mapM g := by
  induction l with
  | nil => rfl
  | cons a l ih =>
    obtain ⟨ha, hl⟩ := List.forall_mem_cons.mp h
    rw [List.mapM_cons, List.mapM_cons, ha, ih hl]

/-- The results of a traversal are those of its elements. -/
theorem mem_of_mapM {f : α → Except ε β} {l : List α} {bs : List β} (h : l.mapM f = .ok bs)
    {b : β} : b ∈ bs ↔ ∃ a ∈ l, f a = .ok b := by
  induction mapM_eq_ok_iff.mp h with
  | nil => simp
  | cons hb hbs ih =>
    rw [List.mem_cons, ih (mapM_eq_ok_iff.mpr hbs), List.exists_mem_cons_iff, hb]
    simp [eq_comm]

/-- What every step keeps of its element, the traversal keeps of the list. -/
theorem map_of_mapM {γ : Type} {f : α → Except ε β} {l : List α} {bs : List β} {p : α → γ}
    {q : β → γ} (h : l.mapM f = .ok bs) (hf : ∀ a b, f a = .ok b → q b = p a) :
    bs.map q = l.map p := by
  induction mapM_eq_ok_iff.mp h with
  | nil => rfl
  | cons hb hbs ih =>
    rw [List.map_cons, List.map_cons, hf _ _ hb, ih (mapM_eq_ok_iff.mpr hbs)]

/-- A traversal fails with the error of the first element at which there is one. -/
theorem mapM_eq_error_iff_find? {f : α → Except ε β} {l : List α} {e : ε} :
    l.mapM f = .error e ↔ ∃ a, l.find? (fun b => !(f b).isOk) = some a ∧ f a = .error e := by
  induction l with
  | nil =>
    rw [List.mapM_nil]
    simp [pure, Except.pure]
  | cons x l ih =>
    rw [List.mapM_cons, bind_eq_error_iff]
    cases hfx : f x with
    | error e' =>
      have hp : (!(f x).isOk) = true := not_isOk_iff.mpr ⟨e', hfx⟩
      rw [List.find?_cons_of_pos (p := fun b => !(f b).isOk) hp]
      simp [hfx]
    | ok c =>
      have hp : ¬ (!(f x).isOk) = true := by
        rw [not_isOk_iff, hfx]
        simp
      rw [List.find?_cons_of_neg (p := fun b => !(f b).isOk) hp, ← ih]
      simp [bind_eq_error_iff, pure, Except.pure]

/-- What is found first in a list that ascends by id is what has the smallest id. -/
theorem find?_eq_some_iff_first {p : α → Bool} {l : List α} {a : α} {id : α → EdgeId}
    (h : l.Pairwise fun a b => id a < id b) :
    l.find? p = some a ↔ a ∈ l ∧ p a = true ∧ ∀ b ∈ l, id b < id a → ¬ p b = true := by
  induction l with
  | nil => simp
  | cons x l ih =>
    obtain ⟨hx, hl⟩ := List.pairwise_cons.mp h
    by_cases hp : p x = true
    · rw [List.find?_cons_of_pos hp]
      constructor
      · rintro ⟨⟩
        refine ⟨List.mem_cons_self, hp, fun b hb hlt => ?_⟩
        rcases List.mem_cons.mp hb with rfl | hb
        · exact absurd hlt (EdgeId.lt_irrefl _)
        · exact absurd (EdgeId.lt_trans hlt (hx b hb)) (EdgeId.lt_irrefl _)
      · rintro ⟨ha, -, hbelow⟩
        rcases List.mem_cons.mp ha with rfl | ha
        · rfl
        · exact absurd hp (hbelow x List.mem_cons_self (hx a ha))
    · rw [List.find?_cons_of_neg hp, ih hl]
      constructor
      · rintro ⟨ha, hpa, hbelow⟩
        refine ⟨List.mem_cons_of_mem _ ha, hpa, fun b hb hlt => ?_⟩
        rcases List.mem_cons.mp hb with rfl | hb
        · exact hp
        · exact hbelow b hb hlt
      · rintro ⟨ha, hpa, hbelow⟩
        rcases List.mem_cons.mp ha with rfl | ha
        · exact absurd hpa hp
        · exact ⟨ha, hpa, fun b hb => hbelow b (List.mem_cons_of_mem _ hb)⟩

/-- **The first error in the order of ids.** A traversal of a list that ascends by id fails with
the error of the smallest id at which there is one. -/
theorem mapM_eq_error_iff {f : α → Except ε β} {l : List α} {e : ε} {id : α → EdgeId}
    (h : l.Pairwise fun a b => id a < id b) :
    l.mapM f = .error e ↔
      ∃ a ∈ l, f a = .error e ∧ ∀ b ∈ l, id b < id a → ∀ e', f b ≠ .error e' := by
  simp only [mapM_eq_error_iff_find?, find?_eq_some_iff_first h, not_isOk_iff, not_exists]
  constructor
  · rintro ⟨a, ⟨ha, -, hbelow⟩, hfa⟩
    exact ⟨a, ha, hfa, hbelow⟩
  · rintro ⟨a, ha, hfa, hbelow⟩
    exact ⟨a, ⟨ha, ⟨e, hfa⟩, hbelow⟩, hfa⟩

/-! ## A whole map -/

namespace EdgeMap

variable {m : EdgeMap α}

theorem exists_mapM_entries_eq_ok_iff {f : EdgeId × α → Except ε β} :
    (∃ bs, m.entries.mapM f = .ok bs) ↔ ∀ i a, m.get? i = some a → ∃ b, f (i, a) = .ok b := by
  rw [exists_mapM_eq_ok_iff]
  constructor
  · intro h i a hget
    exact h (i, a) (mem_entries_iff.mpr hget)
  · rintro h ⟨i, a⟩ hmem
    exact h i a (mem_entries_iff.mp hmem)

/-- A list with the ids of a map ascends by id. -/
theorem ascending_of_map_eq {l : List β} {id : β → EdgeId}
    (h : l.map id = m.entries.map Prod.fst) : l.Pairwise fun a b => id a < id b := by
  rw [← List.pairwise_map, h, List.pairwise_map]
  exact m.ascending

/-- A list with the ids of a map has every id of the map. -/
theorem exists_mem_of_map_eq {l : List β} {id : β → EdgeId} {i : EdgeId} {a : α}
    (h : l.map id = m.entries.map Prod.fst) (ha : m.get? i = some a) : ∃ b ∈ l, id b = i := by
  rw [← List.mem_map, h]
  exact List.mem_map.mpr ⟨(i, a), mem_entries_iff.mpr ha, rfl⟩

/-- **The fault of the smallest id.** If a step fails exactly at the ids with a fault, the traversal
of a map fails at the smallest of them. -/
theorem mapM_entries_eq_error_iff {f : EdgeId × α → Except PlanError β}
    {Faulty : EdgeId → EdgeFault → Prop} (counted : ∀ i g, Faulty i g → ∃ a, m.get? i = some a)
    (hf : ∀ i a, m.get? i = some a →
      ∀ x, f (i, a) = .error x ↔ ∃ g, Faulty i g ∧ x = .badEdge i g) {x : PlanError} :
    m.entries.mapM f = .error x ↔
      ∃ i g, Faulty i g ∧ (∀ j, j < i → ∀ g, ¬ Faulty j g) ∧ x = .badEdge i g := by
  rw [mapM_eq_error_iff m.ascending]
  constructor
  · rintro ⟨⟨i, a⟩, hmem, hx, hbelow⟩
    obtain ⟨g, hg, rfl⟩ := (hf i a (mem_entries_iff.mp hmem) x).mp hx
    refine ⟨i, g, hg, fun j hj g' hg' => ?_, rfl⟩
    obtain ⟨b, hb⟩ := counted j g' hg'
    exact hbelow (j, b) (mem_entries_iff.mpr hb) hj _ ((hf j b hb _).mpr ⟨g', hg', rfl⟩)
  · rintro ⟨i, g, hg, hbelow, rfl⟩
    obtain ⟨a, ha⟩ := counted i g hg
    refine ⟨(i, a), mem_entries_iff.mpr ha, (hf i a ha _).mpr ⟨g, hg, rfl⟩, ?_⟩
    rintro ⟨j, b⟩ hmem hj x hx
    obtain ⟨g', hg', -⟩ := (hf j b (mem_entries_iff.mp hmem) x).mp hx
    exact hbelow j hj g' hg'

end EdgeMap

/-! ## Traced runs -/

namespace Traced

theorem outcome_bind (x : Traced α) (f : α → Traced β) :
    (x >>= f).outcome = x.outcome >>= fun a => (f a).outcome := by
  obtain ⟨es, r⟩ := x
  cases r <;> rfl

theorem outcome_map (f : α → β) (x : Traced α) : (f <$> x).outcome = f <$> x.outcome := by
  obtain ⟨es, r⟩ := x
  cases r <;> rfl

/-- The outcome of a traversal is the traversal of the outcomes. -/
theorem outcome_mapM (f : α → Traced β) (l : List α) :
    (l.mapM f).outcome = l.mapM fun a => (f a).outcome := by
  induction l with
  | nil => rfl
  | cons a l ih =>
    rw [List.mapM_cons, List.mapM_cons, outcome_bind]
    congr 1
    funext b
    rw [outcome_bind, ih]
    rfl

end Traced

end BufferPlan
