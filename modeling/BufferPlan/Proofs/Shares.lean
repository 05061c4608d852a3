import BufferPlan.Proofs.Alike
import BufferPlan.Proofs.Maps

/-!
# A plan is determined by what the maps hold

Two tasks are best compared through what their maps hold, and not through the runs that plan them. A
share is given to an edge that the maps hold (`Task.Gives`), each side of a plan lists its shares
ascending by edge, and the totals add up the sides. So a plan is known as soon as its shares are, in
whatever order they were found.

* `Task.AgreeAt.gives`: tasks that agree at an edge give it the same share.
* `Task.mem_shares_iff_gives`: the shares of a plan are those the maps give.
* `Task.edges_sideShares`, `Task.ascending_sideShares`, `Task.shares_eq_append`: how a plan lists
  them.
* `Task.buffers?_eq_some_iff`: what is looked up in a plan.
-/

namespace BufferPlan

variable {policy : Gate.Policy} {t : Tuning} {task : Task}

/-! ## The shares of a plan -/

/-- The shares of one side. -/
def Plan.sideShares (p : Plan) (side : Side) : List Share := p.shares.filter fun s => s.side = side

/-- The total of one side. -/
def Plan.sideTotal (p : Plan) : Side → UInt64
  | .input => p.inputsTotal
  | .output => p.outputsTotal

/-- Where inputs are listed before outputs, each side is one part of the list. -/
theorem filter_side_append {α : Type} {side : α → Side} {l m : List α}
    (hl : ∀ a ∈ l, side a = .input) (hm : ∀ a ∈ m, side a = .output) :
    ((l ++ m).filter fun a => side a = .input) = l ∧
      ((l ++ m).filter fun a => side a = .output) = m := by
  rw [List.filter_append, List.filter_append]
  constructor
  · rw [List.filter_eq_self.mpr (by simpa using hl), List.filter_eq_nil_iff.mpr, List.append_nil]
    intro a ha
    simp [hm a ha]
  · rw [List.filter_eq_nil_iff.mpr, List.filter_eq_self.mpr (by simpa using hm), List.nil_append]
    intro a ha
    simp [hl a ha]

/-- The counted ids of one side, in the order of ids. -/
def Task.ids (task : Task) : Side → List EdgeId
  | .input => task.inputs.channels.entries.map Prod.fst
  | .output => task.outputs.subpartitions.entries.map Prod.fst

theorem Task.ascending_ids (task : Task) (side : Side) : (task.ids side).Pairwise (· < ·) := by
  cases side with
  | input => exact List.pairwise_map.mpr task.inputs.channels.ascending
  | output => exact List.pairwise_map.mpr task.outputs.subpartitions.ascending

/-- The share of an edge that the maps hold. -/
inductive Task.Gives (policy : Gate.Policy) (t : Tuning) (task : Task) : Share → Prop
  | input {e : InputEdge} (held : task.inputs.Holds e) : Gives policy t task (e.planned policy t)
  | output {e : OutputEdge} {n : UInt64} (held : task.outputs.Holds e)
      (announced : (e.announce t).outcome = .ok n) : Gives policy t task ⟨e.id, .output, e.kind, n⟩

namespace Task

theorem Gives.uses {s : Share} (h : task.Gives policy t s) : task.Uses s.side s.edge := by
  cases h with
  | input held => exact held.uses
  | output held => exact held.uses

/-- Tasks that agree at an edge give it the same share. -/
theorem AgreeAt.gives {a b : Task} {s : Share} (h : a.AgreeAt b s.side s.edge)
    (ha : a.Gives policy t s) : b.Gives policy t s := by
  cases ha with
  | input held => exact .input (Inputs.Alike.holds h held)
  | output held hn => exact .output (Outputs.Alike.holds h held) hn

section

variable {p : Plan} (h : (task.plan policy t).outcome = .ok p)
include h

/-- A plan is made from its shares. -/
theorem ofShares_shares : Plan.ofShares p.shares = p := by
  obtain ⟨ins, outs, shares, -, -, -, rfl⟩ := plan_eq_ok_iff.mp h
  rw [(Plan.accounts_ofShares _).shares]

theorem accounts_shares : p.Accounts p.shares := by
  have := Plan.accounts_ofShares p.shares
  rwa [ofShares_shares h] at this

theorem toNat_sideTotal (side : Side) :
    (p.sideTotal side).toNat = min (Plan.sideSum side p.shares) Saturating.top := by
  cases side with
  | input => exact (accounts_shares h).inputs
  | output => exact (accounts_shares h).outputs

/-- **The shares of a plan are those the maps give.** -/
theorem mem_shares_iff_gives {s : Share} : s ∈ p.shares ↔ task.Gives policy t s := by
  obtain ⟨ins, outs, shares, hins, houts, hshares, rfl⟩ := plan_eq_ok_iff.mp h
  rw [(Plan.accounts_ofShares _).shares, List.mem_append, List.mem_map, mem_of_mapM hshares]
  constructor
  · rintro (⟨e, he, rfl⟩ | ⟨e, he, hs⟩)
    · exact .input ((Inputs.mem_of_resolve hins).mp he)
    · obtain ⟨n, hn, rfl⟩ := OutputEdge.share_eq_ok_iff.mp hs
      exact .output ((Outputs.mem_of_resolve houts).mp he) (OutputEdge.announce_eq_ok_iff.mpr hn)
  · rintro (⟨held⟩ | ⟨held, hn⟩)
    · exact Or.inl ⟨_, (Inputs.mem_of_resolve hins).mpr held, rfl⟩
    · exact Or.inr ⟨_, (Outputs.mem_of_resolve houts).mpr held,
        OutputEdge.share_eq_ok_iff.mpr ⟨_, OutputEdge.announce_eq_ok_iff.mp hn, rfl⟩⟩

theorem mem_sideShares_iff_gives {s : Share} {side : Side} :
    s ∈ p.sideShares side ↔ task.Gives policy t s ∧ s.side = side := by
  rw [Plan.sideShares, List.mem_filter, mem_shares_iff_gives h, decide_eq_true_iff]

/-- What each side of a plan lists. -/
theorem sideShares_of_plan :
    ∃ ins outs shares, task.inputs.resolve = .ok ins ∧ task.outputs.resolve = .ok outs ∧
      (outs.mapM fun e => (e.share t).outcome) = .ok shares ∧
      p.sideShares .input = ins.map (InputEdge.planned policy t) ∧ p.sideShares .output = shares ∧
      p.shares = ins.map (InputEdge.planned policy t) ++ shares := by
  obtain ⟨ins, outs, shares, hins, houts, hshares, rfl⟩ := plan_eq_ok_iff.mp h
  have hinput : ∀ s ∈ ins.map (InputEdge.planned policy t), s.side = .input := by
    intro s hs
    obtain ⟨e, -, rfl⟩ := List.mem_map.mp hs
    rfl
  have houtput : ∀ s ∈ shares, s.side = .output := by
    intro s hs
    exact OutputEdge.side_of_mapM_share hshares hs
  obtain ⟨hin, hout⟩ := filter_side_append hinput houtput
  have hp := (Plan.accounts_ofShares (ins.map (InputEdge.planned policy t) ++ shares)).shares
  refine ⟨ins, outs, shares, hins, houts, hshares, ?_, ?_, hp⟩
  · rw [Plan.sideShares, hp, hin]
  · rw [Plan.sideShares, hp, hout]

/-- Inputs are listed before outputs. -/
theorem shares_eq_append : p.shares = p.sideShares .input ++ p.sideShares .output := by
  obtain ⟨ins, outs, shares, -, -, -, hinput, houtput, hp⟩ := sideShares_of_plan h
  rw [hp, hinput, houtput]

/-- **Each side of a plan has one share for each counted id.** -/
theorem edges_sideShares (side : Side) : (p.sideShares side).map Share.edge = task.ids side := by
  obtain ⟨ins, outs, shares, hins, houts, hshares, hinput, houtput, -⟩ := sideShares_of_plan h
  cases side with
  | input =>
    rw [hinput, List.map_map]
    exact Inputs.ids_of_resolve hins
  | output =>
    have hids : shares.map Share.edge = outs.map OutputEdge.id := by
      refine map_of_mapM hshares fun e s hs => ?_
      obtain ⟨n, -, rfl⟩ := OutputEdge.share_eq_ok_iff.mp hs
      rfl
    rw [houtput, hids]
    exact Outputs.ids_of_resolve houts

/-- Each counted id is given a share. -/
theorem exists_gives {side : Side} {i : EdgeId} (hi : i ∈ task.ids side) :
    ∃ s, task.Gives policy t s ∧ s.side = side ∧ s.edge = i := by
  rw [← edges_sideShares h] at hi
  obtain ⟨s, hs, hedge⟩ := List.mem_map.mp hi
  obtain ⟨hgives, hside⟩ := (mem_sideShares_iff_gives h).mp hs
  exact ⟨s, hgives, hside, hedge⟩

/-- **Each side of a plan ascends by edge.** -/
theorem ascending_sideShares (side : Side) :
    (p.sideShares side).Pairwise fun a b => a.edge < b.edge := by
  rw [← List.pairwise_map, edges_sideShares h]
  exact task.ascending_ids side

/-- **What is looked up in a plan** is the share that the maps give. -/
theorem buffers?_eq_some_iff {i : EdgeId} {side : Side} {n : UInt64} :
    p.buffers? i side = some n ↔
      ∃ s, task.Gives policy t s ∧ s.edge = i ∧ s.side = side ∧ s.buffers = n := by
  unfold Plan.buffers?
  rw [Option.map_eq_some_iff]
  constructor
  · rintro ⟨s, hs, rfl⟩
    have hmem := (mem_shares_iff_gives h).mp (List.mem_of_find?_eq_some hs)
    have hp : s.edge = i ∧ s.side = side := by simpa using List.find?_some hs
    exact ⟨s, hmem, hp.1, hp.2, rfl⟩
  · rintro ⟨s, hs, rfl, rfl, rfl⟩
    cases hfind : p.shares.find? fun r => r.edge = s.edge ∧ r.side = s.side with
    | none =>
      have := List.find?_eq_none.mp hfind s ((mem_shares_iff_gives h).mpr hs)
      simp at this
    | some r =>
      have hr : r.edge = s.edge ∧ r.side = s.side := by simpa using List.find?_some hfind
      have hgives := (mem_shares_iff_gives h).mp (List.mem_of_find?_eq_some hfind)
      -- both are shares of one side, which lists an edge once
      have hrs : r = s := List.inj_on_of_nodup_map
        (nodup_map_of_ascending (ascending_sideShares h s.side))
        ((mem_sideShares_iff_gives h).mpr ⟨hgives, hr.2⟩)
        ((mem_sideShares_iff_gives h).mpr ⟨hs, rfl⟩) hr.1
      exact ⟨r, rfl, by rw [hrs]⟩

end

end Task

end BufferPlan
