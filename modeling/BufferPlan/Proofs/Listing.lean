import BufferPlan.Proofs.Shares

/-!
# What a plan lists, and what is looked up in it

A plan lists one share for each counted id: the inputs first, then the outputs, and each side
ascending by id. The same id may be counted on both sides, and then it has two shares, so a share is
told by its side and its edge (`Share.place`). No place occurs twice in a plan. That is why a look-up,
which takes the first share it finds, finds the share of the edge it was asked for, on the side it
was asked for.

* `Task.pairwise_before`: the order of the list (`Share.Before`).
* `Task.nodup_places`: no place occurs twice.
* `Task.isSome_buffers?_iff`: which edges are found.
* **`Task.plan_lists_counted_edges`**: what is listed, and what is found.
-/

namespace BufferPlan

/-! ## The order of the list -/

namespace Share

/-- Where a share stands in a plan. -/
def place (s : Share) : Side × EdgeId := (s.side, s.edge)

/-- The order in which shares are listed: inputs before outputs, and ascending on each side. -/
inductive Before (s r : Share) : Prop
  | side (hs : s.side = .input) (hr : r.side = .output) : Before s r
  | edge (hside : s.side = r.side) (hedge : s.edge < r.edge) : Before s r

variable {q r s : Share}

theorem place_eq_iff : s.place = r.place ↔ s.side = r.side ∧ s.edge = r.edge := Prod.mk_inj

theorem Before.place_ne (h : s.Before r) : s.place ≠ r.place := by
  intro heq
  obtain ⟨hside, hedge⟩ := place_eq_iff.mp heq
  cases h with
  | side hs hr =>
    rw [hs, hr] at hside
    cases hside
  | edge _ hlt =>
    rw [hedge] at hlt
    exact EdgeId.lt_irrefl _ hlt

end Share

/-- The plan lists the edges, inputs before outputs, each with its own announcement, and finds them
by side and edge. -/
structure Plan.Lists (policy : Gate.Policy) (t : Tuning) (p : Plan) (ins : List InputEdge)
    (outs : List OutputEdge) : Prop where
  append : p.shares = p.sideShares .input ++ p.sideShares .output
  inputs : p.sideShares .input =
    ins.map fun e => ⟨e.id, .input, e.kind, e.announced policy t⟩
  outputs : List.Forall₂ (fun e s => ∃ n, (e.announce t).outcome = .ok n ∧
    s = ⟨e.id, .output, e.kind, n⟩) outs (p.sideShares .output)
  input? : ∀ e ∈ ins, p.buffers? e.id .input = some (e.announced policy t)
  output? : ∀ e ∈ outs, ∃ n, (e.announce t).outcome = .ok n ∧ p.buffers? e.id .output = some n

namespace Task

variable {policy : Gate.Policy} {t : Tuning} {task : Task}

section

variable {p : Plan} (h : (task.plan policy t).outcome = .ok p)
include h

/-- **Inputs are listed before outputs, and each side ascends.** -/
theorem pairwise_before : p.shares.Pairwise Share.Before := by
  have hside (side : Side) : (p.sideShares side).Pairwise Share.Before := by
    refine (ascending_sideShares h side).imp_of_mem fun {s r} hs hr hlt => ?_
    obtain ⟨-, hs⟩ := (mem_sideShares_iff_gives h).mp hs
    obtain ⟨-, hr⟩ := (mem_sideShares_iff_gives h).mp hr
    exact .edge (hs.trans hr.symm) hlt
  rw [shares_eq_append h, List.pairwise_append]
  refine ⟨hside .input, hside .output, fun s hs r hr => ?_⟩
  exact .side ((mem_sideShares_iff_gives h).mp hs).2 ((mem_sideShares_iff_gives h).mp hr).2

/-- **No place occurs twice.** -/
theorem nodup_places : (p.shares.map Share.place).Nodup :=
  List.pairwise_map.mpr ((pairwise_before h).imp Share.Before.place_ne)

/-! ## Looking up -/

/-- **An edge is found iff it is counted.** -/
theorem isSome_buffers?_iff {side : Side} {i : EdgeId} :
    (p.buffers? i side).isSome = true ↔ i ∈ task.ids side := by
  rw [Option.isSome_iff_exists]
  constructor
  · rintro ⟨n, hn⟩
    obtain ⟨s, hs, rfl, rfl, -⟩ := (buffers?_eq_some_iff h).mp hn
    rw [← edges_sideShares h]
    exact List.mem_map.mpr ⟨s, (mem_sideShares_iff_gives h).mpr ⟨hs, rfl⟩, rfl⟩
  · intro hi
    obtain ⟨s, hs, hside, hedge⟩ := exists_gives h hi
    exact ⟨s.buffers, (buffers?_eq_some_iff h).mpr ⟨s, hs, hedge, hside, rfl⟩⟩

/-- An input is found with what it announces. -/
theorem buffers?_input {e : InputEdge} (he : task.inputs.Holds e) :
    p.buffers? e.id .input = some (e.announced policy t) :=
  (buffers?_eq_some_iff h).mpr ⟨e.planned policy t, .input he, rfl, rfl, rfl⟩

/-- An output is found with what it announces. -/
theorem buffers?_output {e : OutputEdge} {n : UInt64} (he : task.outputs.Holds e)
    (hn : (e.announce t).outcome = .ok n) : p.buffers? e.id .output = some n :=
  (buffers?_eq_some_iff h).mpr ⟨⟨e.id, .output, e.kind, n⟩, .output he hn, rfl, rfl, rfl⟩

/-- **A plan lists the counted edges and finds each of them.** There is one share for each counted
id, in the order of ids on each side and inputs first, with what the edge of that id announces. No
two shares are of the same edge on the same side, so an edge is found iff it is counted on the side
it is looked for, and then with its own announcement. -/
theorem plan_lists_counted_edges :
    (∃ ins outs, task.inputs.resolve = .ok ins ∧ task.outputs.resolve = .ok outs ∧
      ins.map InputEdge.id = task.ids .input ∧ outs.map OutputEdge.id = task.ids .output ∧
      p.Lists policy t ins outs) ∧
    (∀ side, (task.ids side).Pairwise (· < ·)) ∧
    (p.shares.map Share.place).Nodup ∧
    ∀ side i, (p.buffers? i side).isSome = true ↔ i ∈ task.ids side := by
  refine ⟨?_, task.ascending_ids, nodup_places h, fun _ _ => isSome_buffers?_iff h⟩
  obtain ⟨ins, outs, shares, hins, houts, hshares, hinput, houtput, -⟩ := sideShares_of_plan h
  have hannounced : List.Forall₂ (fun e s => ∃ n, (OutputEdge.announce t e).outcome = .ok n ∧
      s = ⟨e.id, .output, e.kind, n⟩) outs shares := by
    refine (mapM_eq_ok_iff.mp hshares).imp fun e s hs => ?_
    obtain ⟨n, hn, rfl⟩ := OutputEdge.share_eq_ok_iff.mp hs
    exact ⟨n, OutputEdge.announce_eq_ok_iff.mpr hn, rfl⟩
  refine ⟨ins, outs, hins, houts, Inputs.ids_of_resolve hins, Outputs.ids_of_resolve houts,
    shares_eq_append h, hinput, houtput ▸ hannounced, fun e he => ?_, fun e he => ?_⟩
  · exact buffers?_input h ((Inputs.mem_of_resolve hins).mp he)
  · obtain ⟨s, hs⟩ := exists_mapM_eq_ok_iff.mp ⟨shares, hshares⟩ e he
    obtain ⟨n, hn, -⟩ := OutputEdge.share_eq_ok_iff.mp hs
    have hn := OutputEdge.announce_eq_ok_iff.mpr hn
    exact ⟨n, hn, buffers?_output h ((Outputs.mem_of_resolve houts).mp he) hn⟩

end

/-- A task that reads from edge 1 and writes to edge 1. -/
def relay : Task where
  inputs := (Inputs.insert {} ⟨9⟩ .blocking 4 0).insert ⟨1⟩ .pipelinedBounded 3 2
  outputs := Outputs.insert {} ⟨1⟩ .blocking 6

/-- Edge 1 has a share on either side, and each is found on its own side. -/
theorem plan_lists_counted_edges_relay :
    ∃ p, (relay.plan .standing {}).outcome = .ok p ∧ p.shares.map Share.place =
        [(.input, ⟨1⟩), (.input, ⟨9⟩), (.output, ⟨1⟩)] ∧
      p.buffers? ⟨1⟩ .input = some 28 ∧ p.buffers? ⟨1⟩ .output = some 512 ∧
      (p.shares.map Share.place).Nodup ∧
      ∀ side i, (p.buffers? i side).isSome = true ↔ i ∈ relay.ids side := by
  have h : (relay.plan .standing {}).outcome = .ok
      ⟨[⟨⟨1⟩, .input, .pipelinedBounded, 28⟩, ⟨⟨9⟩, .input, .blocking, 0⟩,
        ⟨⟨1⟩, .output, .blocking, 512⟩], 28, 512⟩ := rfl
  obtain ⟨-, -, hnodup, hfound⟩ := plan_lists_counted_edges h
  exact ⟨_, h, rfl, rfl, rfl, hnodup, hfound⟩

end Task

end BufferPlan
