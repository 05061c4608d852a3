import BufferPlan.Proofs.Listing

/-!
# Changing one edge of a task

A plan is never edited: when an edge of a task is written or is no longer counted, the whole task
is planned anew. The new plan is nevertheless the old one, with one share put in or taken out. Two
facts carry this. What is given to an id, and what is wrong with it, is read from the maps at that
id alone, so tasks that agree off one edge (`Task.AgreeOff`) give the same shares off that edge. And
a plan is listed in a strict order, so it is determined by the shares it lists.

* `Share.PutIn`, `Share.putIn_of_mem`: one share is put in its place in a list.
* `Task.Gives.not_atFault`: an id that is given a share is not at fault.
* `Task.AgreeOff.plan_put`, `Task.AgreeOff.plan_drop`: the plans of two tasks that agree off one
  edge.
* **`Task.one_edge_one_share`**: the plan after an edge is written, and after it is not counted any
  more.
-/

namespace BufferPlan

/-! ## One share of a list -/

namespace Share

variable {r r' s s' : Share} {l m : List Share}

theorem Before.asymm (h : s.Before r) : ¬ r.Before s := by
  intro h'
  cases h with
  | side hs hr =>
    cases h' with
    | side hr' => cases hr.symm.trans hr'
    | edge hside => cases hs.symm.trans (hside.symm.trans hr)
  | edge hside hlt =>
    cases h' with
    | side hr hs => cases hr.symm.trans (hside.symm.trans hs)
    | edge _ hlt' => exact EdgeId.lt_irrefl _ (EdgeId.lt_trans hlt hlt')

instance : Std.Asymm Before := ⟨fun _ _ => Before.asymm⟩

/-- The order looks at places only. -/
theorem Before.of_place_eq (h : s.Before r) (hs : s'.place = s.place) (hr : r'.place = r.place) :
    s'.Before r' := by
  obtain ⟨hside, hedge⟩ := place_eq_iff.mp hs
  obtain ⟨hside', hedge'⟩ := place_eq_iff.mp hr
  cases h with
  | side h₁ h₂ => exact .side (hside.trans h₁) (hside'.trans h₂)
  | edge h₁ h₂ =>
    refine .edge (hside.trans (h₁.trans hside'.symm)) ?_
    rwa [hedge, hedge']

/-- **One share is put in its place**: instead of the share of the same edge on the same side, or,
where there is none, between those before it and those after it. All others stay as they are. -/
inductive PutIn (s : Share) : List Share → List Share → Prop
  | replaced {r : Share} {pre post : List Share} (same : r.place = s.place) :
      PutIn s (pre ++ r :: post) (pre ++ s :: post)
  | inserted {pre post : List Share} (before : ∀ r ∈ pre, r.Before s)
      (after : ∀ r ∈ post, s.Before r) : PutIn s (pre ++ post) (pre ++ s :: post)

/-- In a list in order, a place has one share. -/
theorem mem_iff_eq_of_place_eq (hl : l.Pairwise Before) (hr : r ∈ l) (h : s.place = r.place) :
    s ∈ l ↔ s = r := by
  constructor
  · intro hs
    exact List.inj_on_of_nodup_map (List.pairwise_map.mpr (hl.imp Before.place_ne)) hs hr h
  · rintro rfl
    exact hr

section

variable {pre post : List Share} (h : (pre ++ s :: post).Pairwise Before)
include h

theorem before_and_after : (∀ r ∈ pre, r.Before s) ∧ ∀ r ∈ post, s.Before r := by
  obtain ⟨-, hpost, hcross⟩ := List.pairwise_append.mp h
  exact ⟨fun r hr => hcross r hr s List.mem_cons_self, (List.pairwise_cons.mp hpost).1⟩

/-- The order is kept if a share is replaced by one of the same place. -/
theorem pairwise_replace (hr : r.place = s.place) : (pre ++ r :: post).Pairwise Before := by
  simp only [List.pairwise_append, List.pairwise_cons, List.forall_mem_cons] at h ⊢
  obtain ⟨hpre, ⟨hafter, hpost⟩, hcross⟩ := h
  refine ⟨hpre, ⟨fun q hq => (hafter q hq).of_place_eq hr rfl, hpost⟩, fun q hq => ?_⟩
  exact ⟨(hcross q hq).1.of_place_eq rfl hr, (hcross q hq).2⟩

end

/-- **Lists in order that agree off one place** differ by the share that is put there. -/
theorem putIn_of_mem (hl : l.Pairwise Before) (hm : m.Pairwise Before) (hs : s ∈ m)
    (h : ∀ r, r.place ≠ s.place → (r ∈ m ↔ r ∈ l)) : s.PutIn l m := by
  obtain ⟨pre, post, rfl⟩ := List.append_of_mem hs
  obtain ⟨hbefore, hafter⟩ := before_and_after hm
  -- being in order, the old list is known by its members
  by_cases hpresent : ∃ r ∈ l, r.place = s.place
  · obtain ⟨r, hr, hsame⟩ := hpresent
    have hold := pairwise_replace hm hsame
    have heq : l = pre ++ r :: post := by
      refine hl.eq_of_mem_iff hold fun q => ?_
      by_cases hq : q.place = s.place
      · have hqr : q.place = r.place := hq.trans hsame.symm
        rw [mem_iff_eq_of_place_eq hl hr hqr, mem_iff_eq_of_place_eq hold (by simp) hqr]
      · have hs : q ≠ s := fun heq => hq (congrArg place heq)
        have hr : q ≠ r := fun heq => hq (heq ▸ hsame)
        rw [← h q hq]
        simp [hs, hr]
    rw [heq]
    exact .replaced hsame
  · have hold : (pre ++ post).Pairwise Before :=
      hm.sublist ((List.sublist_cons_self s post).append_left pre)
    have heq : l = pre ++ post := by
      refine hl.eq_of_mem_iff hold fun q => ?_
      by_cases hq : q.place = s.place
      · refine iff_of_false (fun hql => hpresent ⟨q, hql, hq⟩) fun hmem => ?_
        rcases List.mem_append.mp hmem with hmem | hmem
        · exact (hbefore q hmem).place_ne hq
        · exact (hafter q hmem).place_ne hq.symm
      · have hs : q ≠ s := fun heq => hq (congrArg place heq)
        rw [← h q hq]
        simp [hs]
    rw [heq]
    exact .inserted hbefore hafter

end Share

/-! ## Ids at fault -/

namespace Inputs

variable {s : Inputs} {e : InputEdge}

/-- An id of which the data is complete has no fault. -/
theorem Holds.not_faulty (h : s.Holds e) (f : EdgeFault) : ¬ s.Faulty e.id f := by
  intro hf
  have hok := edge_eq_ok_iff.mpr ⟨rfl, h.kind, rfl, h.reuse⟩
  rw [(edge_eq_error_iff h.counted).mpr ⟨f, hf, rfl⟩] at hok
  cases hok

end Inputs

namespace Outputs

variable {s : Outputs} {e : OutputEdge} {t : Tuning} {n : UInt64}

/-- An id of which the data is complete has no fault. -/
theorem Holds.not_faulty (h : s.Holds e) (f : EdgeFault) : ¬ s.Faulty e.id f := by
  intro hf
  have hok := edge_eq_ok_iff.mpr ⟨rfl, h.kind, rfl⟩
  rw [(edge_eq_error_iff h.counted).mpr ⟨f, hf, rfl⟩] at hok
  cases hok

theorem Holds.not_unbounded (h : s.Holds e) (hn : (e.announce t).outcome = .ok n) (k : Kind) :
    ¬ s.Unbounded e.id k := by
  intro hu
  have hkind : e.kind = k := Option.some.inj (h.kind.symm.trans hu.kind)
  have hnone : e.announced? t = none := Partition.announced?_eq_none_iff.mpr (hkind ▸ hu.refused)
  rw [OutputEdge.announce_eq_ok_iff.mp hn] at hnone
  cases hnone

end Outputs

namespace Task

variable {policy : Gate.Policy} {t : Tuning} {task : Task} {side : Side} {i : EdgeId} {s : Share}

/-- Only a counted id is at fault. -/
theorem AtFault.mem_ids (h : task.AtFault side i) : i ∈ task.ids side := by
  cases side with
  | input =>
    obtain ⟨f, hf⟩ := h
    exact EdgeMap.mem_ids_iff.mpr hf.counted
  | output =>
    rcases h with ⟨f, hf⟩ | ⟨k, hk⟩
    · exact EdgeMap.mem_ids_iff.mpr hf.counted
    · exact EdgeMap.mem_ids_iff.mpr hk.counted

/-- Only a counted id is given a share. -/
theorem Gives.mem_ids (h : task.Gives policy t s) : s.edge ∈ task.ids s.side := by
  cases h with
  | input held => exact EdgeMap.mem_ids_iff.mpr ⟨_, held.counted⟩
  | output held => exact EdgeMap.mem_ids_iff.mpr ⟨_, held.counted⟩

/-- An id that is given a share is not at fault. -/
theorem Gives.not_atFault (h : task.Gives policy t s) : ¬ task.AtFault s.side s.edge := by
  cases h with
  | input held =>
    rintro ⟨f, hf⟩
    exact held.not_faulty f hf
  | output held hn =>
    rintro (⟨f, hf⟩ | ⟨k, hk⟩)
    · exact held.not_faulty f hf
    · exact held.not_unbounded hn k hk

/-! ## Tasks that agree off one edge -/

/-- The tasks agree at every edge but one. -/
def AgreeOff (a b : Task) (side : Side) (i : EdgeId) : Prop :=
  ∀ side' j, (side', j) ≠ (side, i) → a.AgreeAt b side' j

variable {a b : Task}

theorem agreeOff_inputs {inputs : Inputs} (h : ∀ j, j ≠ i → task.inputs.Alike j inputs j) :
    task.AgreeOff { task with inputs } .input i := by
  intro side j hne
  cases side with
  | input => exact h j fun heq => hne (congrArg _ heq)
  | output => exact ⟨rfl, rfl⟩

theorem agreeOff_outputs {outputs : Outputs} (h : ∀ j, j ≠ i → task.outputs.Alike j outputs j) :
    task.AgreeOff { task with outputs } .output i := by
  intro side j hne
  cases side with
  | input => exact ⟨rfl, rfl, rfl⟩
  | output => exact h j fun heq => hne (congrArg _ heq)

namespace AgreeOff

variable (hab : a.AgreeOff b side i) {p p' : Plan} (hp : (a.plan policy t).outcome = .ok p)
include hab

/-- The task can still be planned if the one edge is not at fault. -/
theorem exists_plan (hp : (a.plan policy t).outcome = .ok p) (hi : ¬ b.AtFault side i) :
    ∃ p', (b.plan policy t).outcome = .ok p' := by
  refine exists_plan_iff_not_atFault.mpr fun side' j hj => ?_
  by_cases heq : (side', j) = (side, i)
  · obtain ⟨rfl, rfl⟩ := Prod.mk.inj heq
    exact hi hj
  · exact exists_plan_iff_not_atFault.mp ⟨p, hp⟩ side' j ((hab side' j heq).symm.atFault hj)

section

variable (hp' : (b.plan policy t).outcome = .ok p')
include hp hp'

/-- Off the one edge, both plans list the same shares. -/
theorem mem_shares_iff (hs : s.place ≠ (side, i)) : s ∈ p'.shares ↔ s ∈ p.shares := by
  rw [mem_shares_iff_gives hp, mem_shares_iff_gives hp']
  exact ⟨(hab _ _ hs).symm.gives, (hab _ _ hs).gives⟩

/-- The other side of the plan stays as it is. -/
theorem sideShares_eq (other : Side) (hne : other ≠ side) :
    p'.sideShares other = p.sideShares other := by
  refine eq_of_ascending (ascending_sideShares hp' other) (ascending_sideShares hp other) ?_
  intro s
  simp only [Plan.sideShares, List.mem_filter, decide_eq_true_eq]
  refine and_congr_left fun hside => hab.mem_shares_iff hp hp' fun heq => hne ?_
  exact hside.symm.trans (Prod.mk.inj heq).1

theorem sideTotal_eq (other : Side) (hne : other ≠ side) :
    p'.sideTotal other = p.sideTotal other := by
  have hsame := hab.sideShares_eq hp hp' other hne
  apply UInt64.toNat_inj.mp
  rw [toNat_sideTotal hp', toNat_sideTotal hp]
  exact congrArg (fun l => min (l.map fun s => s.buffers.toNat).sum Saturating.top) hsame

end

include hp

/-- **If the one edge is given a share, the share is put in the plan.** -/
theorem plan_put (hs : b.Gives policy t s) (hplace : s.place = (side, i)) :
    ∃ p', (b.plan policy t).outcome = .ok p' ∧ s.PutIn p.shares p'.shares := by
  obtain ⟨rfl, rfl⟩ := Prod.mk.inj hplace
  obtain ⟨p', hp'⟩ := hab.exists_plan hp hs.not_atFault
  refine ⟨p', hp', Share.putIn_of_mem (pairwise_before hp) (pairwise_before hp') ?_ ?_⟩
  · exact (mem_shares_iff_gives hp').mpr hs
  · exact fun r hr => hab.mem_shares_iff hp hp' hr

/-- **If the one edge is not counted, its share is taken out of the plan.** -/
theorem plan_drop (hi : i ∉ b.ids side) :
    ∃ p', (b.plan policy t).outcome = .ok p' ∧
      p'.shares = p.shares.filter fun s => s.place ≠ (side, i) := by
  obtain ⟨p', hp'⟩ := hab.exists_plan hp fun hfault => hi hfault.mem_ids
  refine ⟨p', hp', (pairwise_before hp').eq_of_mem_iff ((pairwise_before hp).filter _) fun s => ?_⟩
  rw [List.mem_filter, decide_eq_true_iff]
  by_cases hs : s.place = (side, i)
  · refine iff_of_false (fun hmem => ?_) fun hmem => hmem.2 hs
    obtain ⟨rfl, rfl⟩ := Prod.mk.inj hs
    exact hi ((mem_shares_iff_gives hp').mp hmem).mem_ids
  · rw [hab.mem_shares_iff hp hp' hs, and_iff_left hs]

end AgreeOff

end Task

/-! ## Writing an edge, and counting it no more -/

namespace Inputs

variable {s s' : Inputs} {i j : EdgeId}

/-- **An id is not counted any more.** What the other maps hold of it is left open. -/
structure Drops (s : Inputs) (i : EdgeId) (s' : Inputs) : Prop where
  channels : s'.channels = s.channels.erase i
  reuse : ∀ j, j ≠ i → s.reuse.get? j = s'.reuse.get? j
  kinds : ∀ j, j ≠ i → s.kinds.get? j = s'.kinds.get? j

theorem Drops.alike (h : s.Drops i s') (hj : j ≠ i) : s.Alike j s' j where
  channels := by rw [h.channels, EdgeMap.get?_erase, if_neg hj]
  reuse := h.reuse j hj
  kinds := h.kinds j hj

theorem Drops.not_mem (h : s.Drops i s') : i ∉ s'.channels.entries.map Prod.fst := by
  rw [h.channels]
  exact EdgeMap.not_mem_ids_erase _ _

theorem alike_insert (hj : j ≠ i) (k : Kind) (n r : UInt32) : s.Alike j (s.insert i k n r) j := by
  constructor <;> rw [insert, EdgeMap.get?_insert, if_neg hj]

theorem holds_insert (s : Inputs) (e : InputEdge) :
    (s.insert e.id e.kind e.channels.val e.reuse).Holds e := by
  constructor <;> rw [insert, EdgeMap.get?_insert, if_pos rfl]

end Inputs

namespace Outputs

variable {s s' : Outputs} {i j : EdgeId}

/-- **An id is not counted any more.** What the other map holds of it is left open. -/
structure Drops (s : Outputs) (i : EdgeId) (s' : Outputs) : Prop where
  subpartitions : s'.subpartitions = s.subpartitions.erase i
  kinds : ∀ j, j ≠ i → s.kinds.get? j = s'.kinds.get? j

theorem Drops.alike (h : s.Drops i s') (hj : j ≠ i) : s.Alike j s' j where
  subpartitions := by rw [h.subpartitions, EdgeMap.get?_erase, if_neg hj]
  kinds := h.kinds j hj

theorem Drops.not_mem (h : s.Drops i s') : i ∉ s'.subpartitions.entries.map Prod.fst := by
  rw [h.subpartitions]
  exact EdgeMap.not_mem_ids_erase _ _

theorem alike_insert (hj : j ≠ i) (k : Kind) (n : UInt32) : s.Alike j (s.insert i k n) j := by
  constructor <;> rw [insert, EdgeMap.get?_insert, if_neg hj]

theorem holds_insert (s : Outputs) (e : OutputEdge) :
    (s.insert e.id e.kind e.subpartitions.val).Holds e := by
  constructor <;> rw [insert, EdgeMap.get?_insert, if_pos rfl]

end Outputs

/-- An output of one of the three kinds that are not refused announces something. -/
theorem OutputEdge.exists_announce {e : OutputEdge} (t : Tuning)
    (h : e.kind = .pipelinedBounded ∨ e.kind = .blocking ∨ e.kind = .blockingPersistent) :
    ∃ n, (e.announce t).outcome = .ok n := by
  cases hn : e.announced? t with
  | none =>
    have hrefused := Partition.announced?_eq_none_iff.mp hn
    rcases h with h | h | h <;> simp [h] at hrefused
  | some n => exact ⟨n, announce_eq_ok_iff.mpr hn⟩

namespace Task

variable {policy : Gate.Policy} {t : Tuning} {task : Task}

/-- **Changing one edge changes one share.** Let a task be planned.

An input with at least one channel can be written, whatever its kind and its reuse count, and an
output of a kind that is not refused. The task can still be planned, and its plan is the old one
with the share of the edge put in: in the place of the share that the edge had on that side, or,
where it had none, at its place in the order.

Where an edge is not counted any more on one side, the plan is the old one without its share on that
side, whatever the other maps still hold of it.

The total of the other side stays as it was. -/
theorem one_edge_one_share {p : Plan} (h : (task.plan policy t).outcome = .ok p) (i : EdgeId) :
    (∀ (kind : Kind) (channels : Count) (reuse : UInt32), ∃ p',
      (plan policy t { task with
        inputs := task.inputs.insert i kind channels.val reuse }).outcome = .ok p' ∧
      (InputEdge.planned policy t ⟨i, kind, channels, reuse⟩).PutIn p.shares p'.shares ∧
      p'.outputsTotal = p.outputsTotal) ∧
    (∀ (kind : Kind) (n : Count),
      kind = .pipelinedBounded ∨ kind = .blocking ∨ kind = .blockingPersistent → ∃ buffers p',
      (OutputEdge.announce t ⟨i, kind, n⟩).outcome = .ok buffers ∧
      (plan policy t { task with outputs := task.outputs.insert i kind n.val }).outcome = .ok p' ∧
      Share.PutIn ⟨i, .output, kind, buffers⟩ p.shares p'.shares ∧
      p'.inputsTotal = p.inputsTotal) ∧
    (∀ inputs, task.inputs.Drops i inputs → ∃ p',
      (plan policy t { task with inputs }).outcome = .ok p' ∧
      p'.shares = p.shares.filter (fun s => s.place ≠ (.input, i)) ∧
      p'.outputsTotal = p.outputsTotal) ∧
    ∀ outputs, task.outputs.Drops i outputs → ∃ p',
      (plan policy t { task with outputs }).outcome = .ok p' ∧
      p'.shares = p.shares.filter (fun s => s.place ≠ (.output, i)) ∧
      p'.inputsTotal = p.inputsTotal := by
  refine ⟨fun kind channels reuse => ?_, fun kind n hkind => ?_, fun inputs hdrops => ?_,
    fun outputs hdrops => ?_⟩
  · have hoff : task.AgreeOff _ .input i :=
      agreeOff_inputs fun j hj => Inputs.alike_insert hj kind channels.val reuse
    have hheld := task.inputs.holds_insert ⟨i, kind, channels, reuse⟩
    obtain ⟨p', hp', hput⟩ := hoff.plan_put h (.input hheld) rfl
    exact ⟨p', hp', hput, hoff.sideTotal_eq h hp' .output (by decide)⟩
  · have hoff : task.AgreeOff _ .output i :=
      agreeOff_outputs fun j hj => Outputs.alike_insert hj kind n.val
    have hheld := task.outputs.holds_insert ⟨i, kind, n⟩
    obtain ⟨buffers, hbuffers⟩ := OutputEdge.exists_announce (e := ⟨i, kind, n⟩) t hkind
    obtain ⟨p', hp', hput⟩ := hoff.plan_put h (.output hheld hbuffers) rfl
    exact ⟨buffers, p', hbuffers, hp', hput, hoff.sideTotal_eq h hp' .input (by decide)⟩
  · have hoff : task.AgreeOff _ .input i := agreeOff_inputs fun j hj => hdrops.alike hj
    obtain ⟨p', hp', hshares⟩ := hoff.plan_drop h hdrops.not_mem
    exact ⟨p', hp', hshares, hoff.sideTotal_eq h hp' .output (by decide)⟩
  · have hoff : task.AgreeOff _ .output i := agreeOff_outputs fun j hj => hdrops.alike hj
    obtain ⟨p', hp', hshares⟩ := hoff.plan_drop h hdrops.not_mem
    exact ⟨p', hp', hshares, hoff.sideTotal_eq h hp' .input (by decide)⟩

/-- Edge 5 is put between edges 1 and 9. Edge 1, which is on both sides, is written anew as an
output, and is not counted as an input any more. -/
theorem one_edge_one_share_relay :
    ∃ p, (relay.plan .standing {}).outcome = .ok p ∧
      (∃ p', (plan .standing {} { relay with
          inputs := relay.inputs.insert ⟨5⟩ .blocking 4 1 }).outcome = .ok p' ∧
        Share.PutIn ⟨⟨5⟩, .input, .blocking, 16⟩ p.shares p'.shares ∧
        p'.outputsTotal = p.outputsTotal) ∧
      (∃ buffers p', (plan .standing {} { relay with
          outputs := relay.outputs.insert ⟨1⟩ .pipelinedBounded 5 }).outcome = .ok p' ∧
        Share.PutIn ⟨⟨1⟩, .output, .pipelinedBounded, buffers⟩ p.shares p'.shares ∧
        p'.inputsTotal = p.inputsTotal) ∧
      ∃ p', (plan .standing {} { relay with
          inputs := { relay.inputs with channels := relay.inputs.channels.erase ⟨1⟩ } }).outcome =
          .ok p' ∧
        p'.shares = [⟨⟨9⟩, .input, .blocking, 0⟩, ⟨⟨1⟩, .output, .blocking, 512⟩] := by
  have h : (relay.plan .standing {}).outcome = .ok
      ⟨[⟨⟨1⟩, .input, .pipelinedBounded, 28⟩, ⟨⟨9⟩, .input, .blocking, 0⟩,
        ⟨⟨1⟩, .output, .blocking, 512⟩], 28, 512⟩ := rfl
  obtain ⟨hinput, -⟩ := one_edge_one_share h ⟨5⟩
  obtain ⟨-, houtput, hdrop, -⟩ := one_edge_one_share h ⟨1⟩
  obtain ⟨buffers, p', -, hwritten⟩ :=
    houtput .pipelinedBounded ⟨5, by decide⟩ (Or.inl rfl)
  obtain ⟨p'', hp'', hshares, -⟩ := hdrop { relay.inputs with
    channels := relay.inputs.channels.erase ⟨1⟩ } ⟨rfl, fun _ _ => rfl, fun _ _ => rfl⟩
  exact ⟨_, h, hinput .blocking ⟨4, by decide⟩ 1, ⟨buffers, p', hwritten⟩, p'', hp'', hshares⟩

end Task

end BufferPlan
