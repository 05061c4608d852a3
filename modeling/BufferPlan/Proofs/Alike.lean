import BufferPlan.Proofs.Failure

/-!
# Ids of which the same is known

What is planned for an edge, and what is wrong with it, follows from what the maps hold at its id
and from nothing else. If the same is known of an id in one task as of another id in a second task
(`Alike`), then both are at fault in the same way, or both are edges and differ in the id alone.

* `Inputs.complete_iff_not_faulty`, `Outputs.complete_iff_not_faulty`: completeness is the absence
  of faults.
* `Inputs.Alike.faulty`, `Outputs.Alike.faulty`, `Outputs.Alike.unbounded`: faults carry over.
* `Inputs.Alike.holds`, `Outputs.Alike.holds`: edges carry over.
* `Task.exists_plan_iff_not_atFault`: a task is planned iff no id is at fault on either side.
* `Task.AgreeAt.atFault`: tasks that agree at an id are both at fault there or neither is.
-/

namespace BufferPlan

variable {i j : EdgeId}

/-! ## Inputs -/

namespace Inputs

/-- Some map has an entry at the id. -/
def Uses (s : Inputs) (i : EdgeId) : Prop :=
  (∃ n, s.channels.get? i = some n) ∨ (∃ r, s.reuse.get? i = some r) ∨ ∃ k, s.kinds.get? i = some k

/-- The maps hold at one id what other maps hold at another. -/
structure Alike (s : Inputs) (i : EdgeId) (s' : Inputs) (j : EdgeId) : Prop where
  channels : s.channels.get? i = s'.channels.get? j
  reuse : s.reuse.get? i = s'.reuse.get? j
  kinds : s.kinds.get? i = s'.kinds.get? j

variable {s s' : Inputs} {f : EdgeFault} {e : InputEdge}

theorem complete_iff_not_faulty : s.Complete ↔ ∀ i f, ¬ s.Faulty i f := by
  constructor
  · intro h i f hf
    cases hf with
    | missingKind hn hk =>
      obtain ⟨⟨k, hk'⟩, -⟩ := h i _ hn
      rw [hk] at hk'
      cases hk'
    | noChannels hn hk => exact (h i 0 hn).2.1 rfl
    | missingReuse hn _ hk hr =>
      obtain ⟨-, -, r, hr'⟩ := h i _ hn
      rw [hr] at hr'
      cases hr'
  · intro h
    rw [← exists_resolve_iff, exists_ok_iff]
    intro x hx
    obtain ⟨i, f, hf, -⟩ := resolve_eq_error_iff.mp hx
    exact h i f hf

theorem Faulty.uses (h : s.Faulty i f) : s.Uses i := Or.inl h.counted

theorem Holds.uses (h : s.Holds e) : s.Uses e.id := Or.inl ⟨_, h.counted⟩

namespace Alike

theorem symm (h : s.Alike i s' j) : s'.Alike j s i :=
  ⟨h.channels.symm, h.reuse.symm, h.kinds.symm⟩

theorem faulty (h : s.Alike i s' j) (hf : s.Faulty i f) : s'.Faulty j f := by
  cases hf with
  | missingKind hn hk => exact .missingKind (h.channels ▸ hn) (h.kinds ▸ hk)
  | noChannels hn hk => exact .noChannels (h.channels ▸ hn) (h.kinds ▸ hk)
  | missingReuse hn hpos hk hr =>
    exact .missingReuse (h.channels ▸ hn) hpos (h.kinds ▸ hk) (h.reuse ▸ hr)

theorem holds (h : s.Alike e.id s' j) (he : s.Holds e) : s'.Holds { e with id := j } :=
  ⟨h.channels ▸ he.counted, h.kinds ▸ he.kind, h.reuse ▸ he.reuse⟩

end Alike

end Inputs

/-! ## Outputs -/

namespace Outputs

/-- Some map has an entry at the id. -/
def Uses (s : Outputs) (i : EdgeId) : Prop :=
  (∃ n, s.subpartitions.get? i = some n) ∨ ∃ k, s.kinds.get? i = some k

/-- The maps hold at one id what other maps hold at another. -/
structure Alike (s : Outputs) (i : EdgeId) (s' : Outputs) (j : EdgeId) : Prop where
  subpartitions : s.subpartitions.get? i = s'.subpartitions.get? j
  kinds : s.kinds.get? i = s'.kinds.get? j

variable {s s' : Outputs} {f : EdgeFault} {k : Kind} {e : OutputEdge}

theorem complete_iff_not_faulty : s.Complete ↔ ∀ i f, ¬ s.Faulty i f := by
  constructor
  · intro h i f hf
    cases hf with
    | missingKind hn hk =>
      obtain ⟨⟨k, hk'⟩, -⟩ := h i _ hn
      rw [hk] at hk'
      cases hk'
    | noSubpartitions hn hk => exact (h i 0 hn).2 rfl
  · intro h
    rw [← exists_resolve_iff, exists_ok_iff]
    intro x hx
    obtain ⟨i, f, hf, -⟩ := resolve_eq_error_iff.mp hx
    exact h i f hf

theorem Faulty.uses (h : s.Faulty i f) : s.Uses i := Or.inl h.counted

theorem Unbounded.uses (h : s.Unbounded i k) : s.Uses i := Or.inl h.counted

theorem Holds.uses (h : s.Holds e) : s.Uses e.id := Or.inl ⟨_, h.counted⟩

namespace Alike

theorem symm (h : s.Alike i s' j) : s'.Alike j s i := ⟨h.subpartitions.symm, h.kinds.symm⟩

theorem faulty (h : s.Alike i s' j) (hf : s.Faulty i f) : s'.Faulty j f := by
  cases hf with
  | missingKind hn hk => exact .missingKind (h.subpartitions ▸ hn) (h.kinds ▸ hk)
  | noSubpartitions hn hk => exact .noSubpartitions (h.subpartitions ▸ hn) (h.kinds ▸ hk)

theorem unbounded (h : s.Alike i s' j) (hu : s.Unbounded i k) : s'.Unbounded j k :=
  ⟨h.subpartitions ▸ hu.counted, h.kinds ▸ hu.kind, hu.refused⟩

theorem holds (h : s.Alike e.id s' j) (he : s.Holds e) : s'.Holds { e with id := j } :=
  ⟨h.subpartitions ▸ he.counted, h.kinds ▸ he.kind⟩

end Alike

end Outputs

/-! ## Both sides -/

/-- Some map of one side has an entry at the id. -/
def Task.Uses (task : Task) (side : Side) (i : EdgeId) : Prop :=
  match side with
  | .input => task.inputs.Uses i
  | .output => task.outputs.Uses i

namespace Task

variable {policy : Gate.Policy} {t : Tuning} {task a b : Task} {side : Side}

/-- The task cannot be planned with what its maps hold at the id. -/
def AtFault (task : Task) : Side → EdgeId → Prop
  | .input, i => ∃ f, task.inputs.Faulty i f
  | .output, i => (∃ f, task.outputs.Faulty i f) ∨ ∃ k, task.outputs.Unbounded i k

/-- **A task is planned iff no id is at fault.** -/
theorem exists_plan_iff_not_atFault :
    (∃ p, (task.plan policy t).outcome = .ok p) ↔ ∀ side i, ¬ task.AtFault side i := by
  rw [exists_plan_iff, Inputs.complete_iff_not_faulty, Outputs.complete_iff_not_faulty]
  constructor
  · rintro ⟨hinputs, houtputs, hbounded⟩ side i
    cases side with
    | input =>
      rintro ⟨f, hf⟩
      exact hinputs i f hf
    | output =>
      rintro (⟨f, hf⟩ | ⟨k, hk⟩)
      · exact houtputs i f hf
      · exact hbounded i k hk
  · intro h
    exact ⟨fun i f hf => h .input i ⟨f, hf⟩, fun i f hf => h .output i (Or.inl ⟨f, hf⟩),
      fun i k hk => h .output i (Or.inr ⟨k, hk⟩)⟩

/-- Only an id that is used is at fault. -/
theorem AtFault.uses (h : task.AtFault side i) : task.Uses side i := by
  cases side with
  | input =>
    obtain ⟨f, hf⟩ := h
    exact hf.uses
  | output =>
    rcases h with ⟨f, hf⟩ | ⟨k, hk⟩
    · exact hf.uses
    · exact hk.uses

/-- The maps of one side hold at an id what those of another task do. -/
def AgreeAt (a b : Task) : Side → EdgeId → Prop
  | .input, i => a.inputs.Alike i b.inputs i
  | .output, i => a.outputs.Alike i b.outputs i

namespace AgreeAt

theorem symm (h : a.AgreeAt b side i) : b.AgreeAt a side i := by
  cases side with
  | input => exact Inputs.Alike.symm h
  | output => exact Outputs.Alike.symm h

theorem atFault (h : a.AgreeAt b side i) (ha : a.AtFault side i) : b.AtFault side i := by
  cases side with
  | input =>
    obtain ⟨f, hf⟩ := ha
    exact ⟨f, Inputs.Alike.faulty h hf⟩
  | output =>
    rcases ha with ⟨f, hf⟩ | ⟨k, hk⟩
    · exact Or.inl ⟨f, Outputs.Alike.faulty h hf⟩
    · exact Or.inr ⟨k, Outputs.Alike.unbounded h hk⟩

end AgreeAt

end Task

end BufferPlan
