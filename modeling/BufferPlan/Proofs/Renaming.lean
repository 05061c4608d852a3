import BufferPlan.Proofs.Alike
import BufferPlan.Proofs.Fit
import BufferPlan.Proofs.Shares

/-!
# Edge ids carry no meaning

The ids of a task can be renamed, on each side by a renaming of its own, without a change of what it
announces. A renaming permutes the order in which edges are visited, so a renamed plan lists its
shares in another order and a renamed task may fail at another edge; but it fails iff the task does,
and the totals, the fit and the share of each edge stay. A renaming that keeps the order keeps the
list of shares and the error as well.

* `Inputs.alike_rename`, `Outputs.alike_rename`: at its new id the same is known of an edge.
* `Task.gives_rename_iff`: the renamed task gives the renamed shares.
* `Task.sideShares_perm`: each side of a renamed plan is a permutation of the renamed shares.
* `Task.plan_rename`: plans and errors of a renamed task.
-/

namespace BufferPlan

variable {policy : Gate.Policy} {t : Tuning} {task : Task} {f g : EdgeId → EdgeId} {i j : EdgeId}

/-! ## Renamings -/

/-- The edge with its id renamed. -/
def InputEdge.rename (f : EdgeId → EdgeId) (e : InputEdge) : InputEdge := { e with id := f e.id }

/-- The edge with its id renamed. -/
def OutputEdge.rename (g : EdgeId → EdgeId) (e : OutputEdge) : OutputEdge := { e with id := g e.id }

namespace Inputs

/-- The maps with every id renamed. -/
def rename (f : EdgeId → EdgeId) (s : Inputs) : Inputs where
  channels := s.channels.rename f
  reuse := s.reuse.rename f
  kinds := s.kinds.rename f

/-- The ids that occur in some map. -/
def ids (s : Inputs) : Set EdgeId := {i | s.Uses i}

variable {s : Inputs} {fault : EdgeFault} (hf : s.ids.InjOn f)
include hf

/-- At its new id the same is known of an edge. -/
theorem alike_rename (hi : s.Uses i) : s.Alike i (s.rename f) (f i) where
  channels := (EdgeMap.get?_rename hf (fun _ n hn => Or.inl ⟨n, hn⟩) hi).symm
  reuse := (EdgeMap.get?_rename hf (fun _ r hr => Or.inr (Or.inl ⟨r, hr⟩)) hi).symm
  kinds := (EdgeMap.get?_rename hf (fun _ k hk => Or.inr (Or.inr ⟨k, hk⟩)) hi).symm

/-- Every counted id is the new id of a counted id. -/
theorem exists_of_counted_rename {n : UInt32} (h : (s.rename f).channels.get? j = some n) :
    ∃ i, s.Uses i ∧ f i = j := by
  obtain ⟨i, hi, rfl⟩ :=
    (EdgeMap.get?_rename_eq_some_iff hf fun _ n hn => Or.inl ⟨n, hn⟩).mp h
  exact ⟨i, Or.inl ⟨n, hi⟩, rfl⟩

theorem faulty_rename_iff :
    (s.rename f).Faulty j fault ↔ ∃ i, s.Faulty i fault ∧ f i = j := by
  constructor
  · intro h
    obtain ⟨n, hn⟩ := h.counted
    obtain ⟨i, hi, rfl⟩ := exists_of_counted_rename hf hn
    exact ⟨i, (alike_rename hf hi).symm.faulty h, rfl⟩
  · rintro ⟨i, h, rfl⟩
    exact (alike_rename hf h.uses).faulty h

theorem complete_rename_iff : (s.rename f).Complete ↔ s.Complete := by
  simp only [complete_iff_not_faulty, faulty_rename_iff hf, not_exists, not_and]
  constructor
  · intro h i fault hfault
    exact h (f i) fault i hfault rfl
  · intro h j fault i hfault
    exact absurd hfault (h i fault)

/-- The renamed maps hold the renamed edges. -/
theorem holds_rename_iff {e : InputEdge} :
    (s.rename f).Holds e ↔ ∃ d, s.Holds d ∧ d.rename f = e := by
  constructor
  · intro h
    obtain ⟨id, kind, channels, reuse⟩ := e
    obtain ⟨i, hi, rfl⟩ := exists_of_counted_rename hf h.counted
    exact ⟨⟨i, kind, channels, reuse⟩, (alike_rename hf hi).symm.holds h, rfl⟩
  · rintro ⟨d, h, rfl⟩
    exact (alike_rename hf h.uses).holds h

end Inputs

namespace Outputs

/-- The maps with every id renamed. -/
def rename (g : EdgeId → EdgeId) (s : Outputs) : Outputs where
  subpartitions := s.subpartitions.rename g
  kinds := s.kinds.rename g

/-- The ids that occur in some map. -/
def ids (s : Outputs) : Set EdgeId := {i | s.Uses i}

variable {s : Outputs} {fault : EdgeFault} {k : Kind} (hg : s.ids.InjOn g)
include hg

/-- At its new id the same is known of an edge. -/
theorem alike_rename (hi : s.Uses i) : s.Alike i (s.rename g) (g i) where
  subpartitions := (EdgeMap.get?_rename hg (fun _ n hn => Or.inl ⟨n, hn⟩) hi).symm
  kinds := (EdgeMap.get?_rename hg (fun _ k hk => Or.inr ⟨k, hk⟩) hi).symm

/-- Every counted id is the new id of a counted id. -/
theorem exists_of_counted_rename {n : UInt32} (h : (s.rename g).subpartitions.get? j = some n) :
    ∃ i, s.Uses i ∧ g i = j := by
  obtain ⟨i, hi, rfl⟩ :=
    (EdgeMap.get?_rename_eq_some_iff hg fun _ n hn => Or.inl ⟨n, hn⟩).mp h
  exact ⟨i, Or.inl ⟨n, hi⟩, rfl⟩

theorem faulty_rename_iff :
    (s.rename g).Faulty j fault ↔ ∃ i, s.Faulty i fault ∧ g i = j := by
  constructor
  · intro h
    obtain ⟨n, hn⟩ := h.counted
    obtain ⟨i, hi, rfl⟩ := exists_of_counted_rename hg hn
    exact ⟨i, (alike_rename hg hi).symm.faulty h, rfl⟩
  · rintro ⟨i, h, rfl⟩
    exact (alike_rename hg h.uses).faulty h

theorem complete_rename_iff : (s.rename g).Complete ↔ s.Complete := by
  simp only [complete_iff_not_faulty, faulty_rename_iff hg, not_exists, not_and]
  constructor
  · intro h i fault hfault
    exact h (g i) fault i hfault rfl
  · intro h j fault i hfault
    exact absurd hfault (h i fault)

/-- The renamed maps hold the renamed edges. -/
theorem holds_rename_iff {e : OutputEdge} :
    (s.rename g).Holds e ↔ ∃ d, s.Holds d ∧ d.rename g = e := by
  constructor
  · intro h
    obtain ⟨id, kind, subpartitions⟩ := e
    obtain ⟨i, hi, rfl⟩ := exists_of_counted_rename hg h.counted
    exact ⟨⟨i, kind, subpartitions⟩, (alike_rename hg hi).symm.holds h, rfl⟩
  · rintro ⟨d, h, rfl⟩
    exact (alike_rename hg h.uses).holds h

theorem unbounded_rename_iff :
    (s.rename g).Unbounded j k ↔ ∃ i, s.Unbounded i k ∧ g i = j := by
  constructor
  · intro h
    obtain ⟨n, hn⟩ := h.counted
    obtain ⟨i, hi, rfl⟩ := exists_of_counted_rename hg hn
    exact ⟨i, (alike_rename hg hi).symm.unbounded h, rfl⟩
  · rintro ⟨i, h, rfl⟩
    exact (alike_rename hg h.uses).unbounded h

end Outputs

/-! ## Renamed plans -/

/-- Of two renamings, the one for a side. -/
def Side.renaming (f g : EdgeId → EdgeId) : Side → EdgeId → EdgeId
  | input => f
  | output => g

/-- The share with its edge renamed. -/
def Share.rename (f g : EdgeId → EdgeId) (s : Share) : Share :=
  { s with edge := s.side.renaming f g s.edge }

/-- The plan with its edges renamed one by one. -/
def Plan.rename (f g : EdgeId → EdgeId) (p : Plan) : Plan :=
  { p with shares := p.shares.map (Share.rename f g) }

/-- The error with its edge renamed. -/
def PlanError.rename (f : EdgeId → EdgeId) : PlanError → PlanError
  | badEdge edge fault => badEdge (f edge) fault
  | unbounded edge? kind => unbounded (edge?.map f) kind

namespace Task

/-- The task with the ids of its sides renamed. -/
def rename (f g : EdgeId → EdgeId) (task : Task) : Task :=
  ⟨task.inputs.rename f, task.outputs.rename g⟩

section

variable (hf : task.inputs.ids.InjOn f) (hg : task.outputs.ids.InjOn g)
include hf hg

/-- A renaming does not decide whether a task can be planned. -/
theorem exists_plan_rename_iff :
    (∃ p, ((task.rename f g).plan policy t).outcome = .ok p) ↔
      ∃ p, (task.plan policy t).outcome = .ok p := by
  rw [exists_plan_iff, exists_plan_iff]
  refine and_congr (Inputs.complete_rename_iff hf)
    (and_congr (Outputs.complete_rename_iff hg) ?_)
  simp only [rename, Outputs.unbounded_rename_iff hg, not_exists, not_and]
  constructor
  · intro h i k hu
    exact h (g i) k i hu rfl
  · intro h j k i hu
    exact absurd hu (h i k)

/-- **The renamed task gives the renamed shares.** -/
theorem gives_rename_iff {s : Share} :
    (task.rename f g).Gives policy t s ↔ ∃ r, task.Gives policy t r ∧ r.rename f g = s := by
  constructor
  · intro hs
    cases hs with
    | input held =>
      obtain ⟨d, hd, rfl⟩ := (Inputs.holds_rename_iff hf).mp held
      exact ⟨_, .input hd, rfl⟩
    | output held hn =>
      obtain ⟨d, hd, rfl⟩ := (Outputs.holds_rename_iff hg).mp held
      rw [OutputEdge.announce_eq_ok_iff] at hn
      exact ⟨_, .output hd (OutputEdge.announce_eq_ok_iff.mpr hn), rfl⟩
  · rintro ⟨r, hr, rfl⟩
    cases hr with
    | input held =>
      have held' : (task.rename f g).inputs.Holds _ :=
        (Inputs.holds_rename_iff hf).mpr ⟨_, held, rfl⟩
      exact .input held'
    | output held hn =>
      have held' : (task.rename f g).outputs.Holds _ :=
        (Outputs.holds_rename_iff hg).mpr ⟨_, held, rfl⟩
      rw [OutputEdge.announce_eq_ok_iff] at hn
      exact .output held' (OutputEdge.announce_eq_ok_iff.mpr hn)

/-- No two ids of one side fall together. -/
theorem eq_of_renaming_eq {side : Side} (hi : task.Uses side i) (hj : task.Uses side j)
    (heq : side.renaming f g i = side.renaming f g j) : i = j := by
  cases side with
  | input => exact hf hi hj heq
  | output => exact hg hi hj heq

section

variable {p p' : Plan} (hp : (task.plan policy t).outcome = .ok p)
  (hp' : ((task.rename f g).plan policy t).outcome = .ok p')
include hp hp'

/-- **Each side of a renamed plan is a permutation of the renamed shares.** -/
theorem sideShares_perm (side : Side) :
    (p'.sideShares side).Perm ((p.sideShares side).map (Share.rename f g)) := by
  have hnodup : ((p.sideShares side).map (Share.rename f g)).Nodup := by
    refine List.Nodup.map_on ?_ (nodup_map_of_ascending (ascending_sideShares hp side)).of_map
    intro r hr s hs heq
    obtain ⟨hr', hrside⟩ := (mem_sideShares_iff_gives hp).mp hr
    obtain ⟨hs', hsside⟩ := (mem_sideShares_iff_gives hp).mp hs
    have hedges := nodup_map_of_ascending (ascending_sideShares hp side)
    refine List.inj_on_of_nodup_map hedges hr hs ?_
    apply eq_of_renaming_eq hf hg (hrside ▸ hr'.uses) (hsside ▸ hs'.uses)
    have hedge := congrArg Share.edge heq
    rwa [Share.rename, Share.rename, hrside, hsside] at hedge
  refine (List.perm_ext_iff_of_nodup
    (nodup_map_of_ascending (ascending_sideShares hp' side)).of_map hnodup).mpr fun s => ?_
  rw [mem_sideShares_iff_gives hp', gives_rename_iff hf hg, List.mem_map]
  constructor
  · rintro ⟨⟨r, hr, rfl⟩, hside⟩
    exact ⟨r, (mem_sideShares_iff_gives hp).mpr ⟨hr, hside⟩, rfl⟩
  · rintro ⟨r, hr, rfl⟩
    obtain ⟨hr, hside⟩ := (mem_sideShares_iff_gives hp).mp hr
    exact ⟨⟨r, hr, rfl⟩, hside⟩

/-- Each side announces, in exact arithmetic, what it did before. -/
theorem sideSum_rename (side : Side) :
    Plan.sideSum side p'.shares = Plan.sideSum side p.shares := by
  show ((p'.sideShares side).map _).sum = ((p.sideShares side).map _).sum
  rw [((sideShares_perm hf hg hp hp' side).map _).sum_eq, List.map_map]
  rfl

/-- **A renaming does not change the totals.** -/
theorem totals_rename :
    p'.inputsTotal = p.inputsTotal ∧ p'.outputsTotal = p.outputsTotal ∧ p'.total = p.total := by
  have h := accounts_shares hp
  have h' := accounts_shares hp'
  have hsum := sideSum_rename hf hg hp hp'
  refine ⟨?_, ?_, ?_⟩ <;> apply UInt64.toNat_inj.mp
  · rw [h'.inputs, h.inputs, hsum]
  · rw [h'.outputs, h.outputs, hsum]
  · rw [h'.total, h.total, hsum, hsum]

/-- **The share of an edge is found at its new id.** -/
theorem buffers?_rename {side : Side} (hi : task.Uses side i) :
    p'.buffers? (side.renaming f g i) side = p.buffers? i side := by
  apply Option.ext
  intro n
  rw [buffers?_eq_some_iff hp', buffers?_eq_some_iff hp]
  constructor
  · rintro ⟨s, hs, hedge, rfl, rfl⟩
    obtain ⟨r, hr, rfl⟩ := (gives_rename_iff hf hg).mp hs
    exact ⟨r, hr, eq_of_renaming_eq hf hg hr.uses hi hedge, rfl, rfl⟩
  · rintro ⟨r, hr, rfl, rfl, rfl⟩
    exact ⟨r.rename f g, (gives_rename_iff hf hg).mpr ⟨r, hr, rfl⟩, rfl, rfl, rfl⟩

/-- **A renaming does not change the fit.** -/
theorem fit_rename : ((task.rename f g).fit policy t).outcome = (task.fit policy t).outcome := by
  obtain ⟨d, hd, hfit⟩ := outcome_fit_of_announcement (announcement_eq_ok_iff.mpr ⟨p, hp, rfl⟩)
  obtain ⟨d', hd', hfit'⟩ :=
    outcome_fit_of_announcement (announcement_eq_ok_iff.mpr ⟨p', hp', rfl⟩)
  -- the footprints are the totals of the standing policy, whose plans are renamed as well
  obtain ⟨q, hq, rfl⟩ := announcement_eq_ok_iff.mp hd
  obtain ⟨q', hq', rfl⟩ := announcement_eq_ok_iff.mp hd'
  rw [hfit, hfit', (totals_rename hf hg hp hp').2.2, (totals_rename hf hg hq hq').2.2]

end

end

end Task

/-! ## Renamings that keep the order -/

/-- The renaming keeps the order of ids. -/
def IncreasingOn (f : EdgeId → EdgeId) (S : Set EdgeId) : Prop :=
  ∀ i ∈ S, ∀ j ∈ S, i < j → f i < f j

theorem IncreasingOn.lt_of_lt {S : Set EdgeId} (h : IncreasingOn f S) (hi : i ∈ S) (hj : j ∈ S)
    (hlt : f i < f j) : i < j := by
  by_contra hnot
  by_cases heq : i = j
  · subst heq
    exact EdgeId.lt_irrefl _ hlt
  · have hji := h j hj i hi (EdgeId.lt_of_not_lt_of_ne hnot heq)
    exact EdgeId.lt_irrefl _ (EdgeId.lt_trans hlt hji)

namespace Task

section

variable (hf : task.inputs.ids.InjOn f) (hg : task.outputs.ids.InjOn g)
  (hfmono : IncreasingOn f task.inputs.ids) (hgmono : IncreasingOn g task.outputs.ids)
include hf hg hfmono hgmono

omit hf hg in
theorem renaming_lt_renaming {side : Side} (hi : task.Uses side i) (hj : task.Uses side j)
    (hlt : i < j) : side.renaming f g i < side.renaming f g j := by
  cases side with
  | input => exact hfmono i hi j hj hlt
  | output => exact hgmono i hi j hj hlt

/-- **The plan is renamed position by position.** -/
theorem plan_rename_eq_ok {p : Plan} (hp : (task.plan policy t).outcome = .ok p) :
    ((task.rename f g).plan policy t).outcome = .ok (p.rename f g) := by
  obtain ⟨p', hp'⟩ : ∃ p', ((task.rename f g).plan policy t).outcome = .ok p' :=
    (exists_plan_rename_iff hf hg).mpr ⟨p, hp⟩
  have hside (side : Side) :
      p'.sideShares side = (p.sideShares side).map (Share.rename f g) := by
    refine eq_of_ascending (ascending_sideShares hp' side) ?_ fun s =>
      (sideShares_perm hf hg hp hp' side).mem_iff
    refine List.pairwise_map.mpr ((ascending_sideShares hp side).imp_of_mem ?_)
    intro r s hr hs hlt
    obtain ⟨hr, hrside⟩ := (mem_sideShares_iff_gives hp).mp hr
    obtain ⟨hs, hsside⟩ := (mem_sideShares_iff_gives hp).mp hs
    rw [Share.rename, Share.rename, hrside, hsside]
    exact renaming_lt_renaming hfmono hgmono (hrside ▸ hr.uses) (hsside ▸ hs.uses) hlt
  have hshares : p'.shares = p.shares.map (Share.rename f g) := by
    rw [shares_eq_append hp', hside, hside, ← List.map_append, ← shares_eq_append hp]
  obtain ⟨hin, hout, -⟩ := totals_rename hf hg hp hp'
  obtain ⟨shares, inputsTotal, outputsTotal⟩ := p'
  rw [hp', Plan.rename, ← hshares, ← hin, ← hout]

omit hg hgmono in
/-- An error of the inputs is renamed as the inputs are. -/
theorem plan_rename_eq_error_of_inputs {x : PlanError} (hx : task.inputs.resolve = .error x) :
    ((task.rename f g).plan policy t).outcome = .error (x.rename f) := by
  obtain ⟨i, fault, hfault, hfirst, rfl⟩ := Inputs.resolve_eq_error_iff.mp hx
  have hfault' := (Inputs.faulty_rename_iff hf).mpr ⟨i, hfault, rfl⟩
  refine plan_eq_error_iff_fails.mpr (.input hfault' ?_)
  intro j hj fault' hfault'
  obtain ⟨k, hk, rfl⟩ := (Inputs.faulty_rename_iff hf).mp hfault'
  exact hfirst k (hfmono.lt_of_lt hk.uses hfault.uses hj) fault' hk

omit hfmono in
/-- Any other error is renamed as the outputs are. -/
theorem plan_rename_eq_error_of_outputs {ins : List InputEdge} {x : PlanError}
    (hins : task.inputs.resolve = .ok ins) (hx : (task.plan policy t).outcome = .error x) :
    ((task.rename f g).plan policy t).outcome = .error (x.rename g) := by
  have hcomplete := Inputs.exists_resolve_iff.mp ⟨ins, hins⟩
  rw [plan_eq_error_iff_fails] at hx ⊢
  cases hx with
  | input hfault => exact absurd hfault (Inputs.complete_iff_not_faulty.mp hcomplete _ _)
  | output _ hfault hfirst =>
    refine .output ((Inputs.complete_rename_iff hf).mpr hcomplete)
      ((Outputs.faulty_rename_iff hg).mpr ⟨_, hfault, rfl⟩) ?_
    intro j hj fault' hfault'
    obtain ⟨k, hk, rfl⟩ := (Outputs.faulty_rename_iff hg).mp hfault'
    exact hfirst k (hgmono.lt_of_lt hk.uses hfault.uses hj) fault' hk
  | unbounded _ houts hu hfirst =>
    refine .unbounded ((Inputs.complete_rename_iff hf).mpr hcomplete)
      ((Outputs.complete_rename_iff hg).mpr houts)
      ((Outputs.unbounded_rename_iff hg).mpr ⟨_, hu, rfl⟩) ?_
    intro j hj l hl
    obtain ⟨k, hk, rfl⟩ := (Outputs.unbounded_rename_iff hg).mp hl
    exact hfirst k (hgmono.lt_of_lt hk.uses hu.uses hj) l hk

end

/-- **Edge ids carry no meaning.** A renaming that keeps the ids of each side apart does not decide
whether a task can be planned, and changes neither the totals nor the fit nor the share of an edge.
If it keeps their order as well, plans are renamed position by position and errors at their edge. -/
theorem plan_rename (hf : task.inputs.ids.InjOn f) (hg : task.outputs.ids.InjOn g)
    (policy : Gate.Policy) (t : Tuning) :
    ((∃ p, ((task.rename f g).plan policy t).outcome = .ok p) ↔
      ∃ p, (task.plan policy t).outcome = .ok p) ∧
    (∀ p p', (task.plan policy t).outcome = .ok p →
      ((task.rename f g).plan policy t).outcome = .ok p' →
      p'.inputsTotal = p.inputsTotal ∧ p'.outputsTotal = p.outputsTotal ∧ p'.total = p.total ∧
      ((task.rename f g).fit policy t).outcome = (task.fit policy t).outcome ∧
      (∀ i, task.inputs.Uses i → p'.buffers? (f i) .input = p.buffers? i .input) ∧
      ∀ i, task.outputs.Uses i → p'.buffers? (g i) .output = p.buffers? i .output) ∧
    (IncreasingOn f task.inputs.ids → IncreasingOn g task.outputs.ids →
      (∀ p, (task.plan policy t).outcome = .ok p →
        ((task.rename f g).plan policy t).outcome = .ok (p.rename f g)) ∧
      (∀ x, task.inputs.resolve = .error x →
        ((task.rename f g).plan policy t).outcome = .error (x.rename f)) ∧
      ∀ ins x, task.inputs.resolve = .ok ins → (task.plan policy t).outcome = .error x →
        ((task.rename f g).plan policy t).outcome = .error (x.rename g)) := by
  refine ⟨exists_plan_rename_iff hf hg, fun p p' hp hp' => ?_, fun hfmono hgmono => ?_⟩
  · obtain ⟨hin, hout, htotal⟩ := totals_rename hf hg hp hp'
    refine ⟨hin, hout, htotal, fit_rename hf hg hp hp', fun i hi => ?_, fun i hi => ?_⟩
    · have huses : task.Uses .input i := hi
      exact buffers?_rename hf hg hp hp' huses
    · have huses : task.Uses .output i := hi
      exact buffers?_rename hf hg hp hp' huses
  · refine ⟨fun p hp => ?_, fun x hx => ?_, fun ins x hins hx => ?_⟩
    · exact plan_rename_eq_ok hf hg hfmono hgmono hp
    · exact plan_rename_eq_error_of_inputs hf hfmono hx
    · exact plan_rename_eq_error_of_outputs hf hg hgmono hins hx

/-- Two inputs that differ in all but the side, and one output of the id of one of them. -/
def sample : Task where
  inputs := (Inputs.insert {} ⟨1⟩ .blocking 4 1).insert ⟨2⟩ .pipelinedBounded 3 2
  outputs := Outputs.insert {} ⟨1⟩ .blocking 6

/-- The renaming that turns the order around below three. -/
def mirror (i : EdgeId) : EdgeId := ⟨3 - i.raw⟩

theorem mirror_mirror (i : EdgeId) : mirror (mirror i) = i := by
  unfold mirror
  simp

/-- The renaming that adds five. It keeps the order of small ids. -/
def raise (i : EdgeId) : EdgeId := ⟨i.raw + 5⟩

/-- Turning the order of the inputs around turns the shares around and keeps all else. Adding five
to their ids keeps the order of the shares as well. -/
theorem plan_rename_mirrored :
    ∃ p p', (sample.plan .standing {}).outcome = .ok p ∧
      ((sample.rename mirror id).plan .standing {}).outcome = .ok p' ∧
      p.shares.map Share.buffers = [16, 28, 512] ∧ p'.shares.map Share.buffers = [28, 16, 512] ∧
      p'.total = p.total ∧
      ((sample.rename mirror id).fit .standing {}).outcome = (sample.fit .standing {}).outcome ∧
      p'.buffers? (mirror ⟨1⟩) .input = p.buffers? ⟨1⟩ .input ∧
      ((sample.rename raise id).plan .standing {}).outcome = .ok (p.rename raise id) := by
  have hf : sample.inputs.ids.InjOn mirror := fun i _ j _ heq => by
    rw [← mirror_mirror i, heq, mirror_mirror]
  have hg : sample.outputs.ids.InjOn id := fun i _ j _ heq => heq
  have hp : (sample.plan .standing {}).outcome = .ok
      ⟨[⟨⟨1⟩, .input, .blocking, 16⟩, ⟨⟨2⟩, .input, .pipelinedBounded, 28⟩,
        ⟨⟨1⟩, .output, .blocking, 512⟩], 44, 512⟩ := rfl
  have hp' : ((sample.rename mirror id).plan .standing {}).outcome = .ok
      ⟨[⟨⟨1⟩, .input, .pipelinedBounded, 28⟩, ⟨⟨2⟩, .input, .blocking, 16⟩,
        ⟨⟨1⟩, .output, .blocking, 512⟩], 44, 512⟩ := rfl
  have hids : ∀ i ∈ sample.inputs.ids, i.raw.toNat ≤ 2 := by
    intro i hi
    have huses : sample.inputs.Uses i := hi
    have hid : i = ⟨1⟩ ∨ i = ⟨2⟩ := by
      by_contra hnot
      obtain ⟨h₁, h₂⟩ := not_or.mp hnot
      simp [sample, Inputs.Uses, Inputs.insert, h₁, h₂] at huses
    rcases hid with rfl | rfl <;> decide
  have hraise : sample.inputs.ids.InjOn raise := fun ⟨i⟩ _ ⟨j⟩ _ heq => by
    simpa [raise] using heq
  have hraisemono : IncreasingOn raise sample.inputs.ids := by
    intro i hi j hj hlt
    have hi := hids i hi
    have hj := hids j hj
    rw [EdgeId.lt_iff] at hlt ⊢
    simp only [raise, UInt64.toNat_add, UInt64.reduceToNat]
    omega
  have hidmono : IncreasingOn id sample.outputs.ids := fun i _ j _ hlt => hlt
  obtain ⟨-, hplan, -⟩ := plan_rename hf hg .standing {}
  obtain ⟨-, -, htotal, hfit, hinput, -⟩ := hplan _ _ hp hp'
  obtain ⟨-, -, hkept⟩ := plan_rename hraise hg .standing {}
  obtain ⟨hraised, -⟩ := hkept hraisemono hidmono
  exact ⟨_, _, hp, hp', rfl, rfl, htotal, hfit, hinput ⟨1⟩ (Or.inl ⟨4, rfl⟩), hraised _ hp⟩

end Task

end BufferPlan
