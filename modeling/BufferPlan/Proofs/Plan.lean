import BufferPlan.Announcement
import BufferPlan.Proofs.Saturating
import BufferPlan.Proofs.Traversal
import Mathlib

/-!
# What a plan is made of

A plan goes through four stages: the inputs are joined, each gets its share, the outputs are joined,
each gets its share. Only the two joins and the shares of outputs can fail, and none of them looks
at the policy. This file takes a run apart into these stages, once for success and once for failure,
and accounts for the totals that the shares are added up to.

* `Task.plan_eq_ok_iff`, `Task.plan_eq_error_iff`: the stages of a run.
* `OutputEdge.share_eq_error_iff`: a share is refused for two kinds only, whatever the tuning.
* `Plan.accounts_ofShares`: the totals of a plan are the exact sums of its shares, clamped once.
-/

namespace BufferPlan

variable {policy : Gate.Policy} {t : Tuning} {task : Task}

/-! ## What one edge announces -/

/-- The share of an input edge. -/
def InputEdge.planned (policy : Gate.Policy) (t : Tuning) (e : InputEdge) : Share :=
  ⟨e.id, .input, e.kind, e.announced policy t⟩

theorem InputEdge.outcome_share (e : InputEdge) :
    (e.share policy t).outcome = .ok (e.planned policy t) := rfl

namespace Partition

/-- **Only the live kinds without a ceiling announce nothing**, whatever the fan-out and the tuning:
a bounded pool has a ceiling, and a blocking one is announced by its floor. -/
theorem announced?_eq_none_iff {kind : Kind} {n : Count} :
    announced? kind (bounds kind n t) = none ↔
      kind = .pipelined ∨ kind = .pipelinedApproximate := by
  cases kind <;> simp [announced?, bounds, isSorted, Kind.isLive, Kind.isBounded, Kind.isBlocking,
    Bounds.atLeast, Bounds.between]

theorem outcome_announce (kind : Kind) (b : Bounds) :
    (announce kind b).outcome =
      match announced? kind b with
      | some n => .ok n
      | none => .error (.unbounded none kind) := by
  unfold announce
  cases announced? kind b <;> rfl

end Partition

namespace OutputEdge

variable {e : OutputEdge}

/-- What an output edge announces, or `none` if it is refused. -/
def announced? (t : Tuning) (e : OutputEdge) : Option UInt64 :=
  Partition.announced? e.kind (Partition.bounds e.kind e.subpartitions t)

theorem outcome_announce (t : Tuning) (e : OutputEdge) :
    (e.announce t).outcome =
      match e.announced? t with
      | some n => .ok n
      | none => .error (.unbounded (some e.id) e.kind) := by
  rw [announce, Traced.mapError, Partition.outcome_announce, announced?]
  cases Partition.announced? e.kind (Partition.bounds e.kind e.subpartitions t) <;> rfl

theorem outcome_share (t : Tuning) (e : OutputEdge) :
    (e.share t).outcome =
      match e.announced? t with
      | some n => .ok ⟨e.id, .output, e.kind, n⟩
      | none => .error (.unbounded (some e.id) e.kind) := by
  rw [share, Traced.outcome_bind, outcome_announce]
  cases e.announced? t <;> rfl

theorem announce_eq_ok_iff {n : UInt64} :
    (e.announce t).outcome = .ok n ↔ e.announced? t = some n := by
  rw [outcome_announce]
  cases e.announced? t <;> simp

theorem share_eq_ok_iff {s : Share} :
    (e.share t).outcome = .ok s ↔
      ∃ n, e.announced? t = some n ∧ s = ⟨e.id, .output, e.kind, n⟩ := by
  rw [outcome_share]
  cases e.announced? t <;> simp [eq_comm]

theorem share_eq_error_iff {x : PlanError} :
    (e.share t).outcome = .error x ↔
      (e.kind = .pipelined ∨ e.kind = .pipelinedApproximate) ∧
        x = .unbounded (some e.id) e.kind := by
  rw [← Partition.announced?_eq_none_iff (t := t) (n := e.subpartitions), ← announced?,
    outcome_share]
  cases e.announced? t <;> simp [eq_comm]

section

variable {outs : List OutputEdge} {shares : List Share}
  (h : (outs.mapM fun e => (e.share t).outcome) = .ok shares)
include h

theorem side_of_mapM_share {s : Share} (hs : s ∈ shares) : s.side = .output := by
  obtain ⟨e, -, he⟩ := (mem_of_mapM h).mp hs
  obtain ⟨n, -, rfl⟩ := share_eq_ok_iff.mp he
  rfl

/-- The buffers of the shares are what the edges announce. -/
theorem mapM_announce_of_mapM_share :
    (outs.mapM fun e => (e.announce t).outcome) = .ok (shares.map Share.buffers) := by
  rw [mapM_eq_ok_iff, List.forall₂_map_right_iff]
  refine (mapM_eq_ok_iff.mp h).imp fun e s hs => ?_
  obtain ⟨n, hn, rfl⟩ := share_eq_ok_iff.mp hs
  exact announce_eq_ok_iff.mpr hn

end

end OutputEdge

/-! ## The totals -/

namespace Plan

open Saturating (top toNat_add min_min_add_min)

/-- The buffers that the shares of one side announce, added up exactly. -/
def sideSum (side : Side) (l : List Share) : Nat :=
  ((l.filter fun s => s.side = side).map fun s => s.buffers.toNat).sum

/-- **The plan accounts for the shares**: it lists them, and each of its totals is the exact sum of
its side, clamped once. -/
structure Accounts (p : Plan) (l : List Share) : Prop where
  shares : p.shares = l
  inputs : p.inputsTotal.toNat = min (sideSum .input l) top
  outputs : p.outputsTotal.toNat = min (sideSum .output l) top

theorem sideSum_append (side : Side) (l m : List Share) :
    sideSum side (l ++ m) = sideSum side l + sideSum side m := by
  rw [sideSum, List.filter_append, List.map_append, List.sum_append]
  rfl

theorem sideSum_singleton (side : Side) (s : Share) :
    sideSum side [s] = if s.side = side then s.buffers.toNat else 0 := by
  unfold sideSum
  by_cases h : s.side = side
  · simp [h]
  · simp [h]

theorem sideSum_eq_sum {side : Side} {l : List Share} (h : ∀ s ∈ l, s.side = side) :
    sideSum side l = (l.map fun s => s.buffers.toNat).sum := by
  rw [sideSum, List.filter_eq_self.mpr fun s hs => decide_eq_true (h s hs)]

theorem sideSum_eq_zero {side : Side} {l : List Share} (h : ∀ s ∈ l, s.side ≠ side) :
    sideSum side l = 0 := by
  rw [sideSum, List.filter_eq_nil_iff.mpr fun s hs => by simpa using h s hs]
  rfl

/-- Both sides together are all the shares. -/
theorem sideSum_input_add_output (l : List Share) :
    sideSum .input l + sideSum .output l = (l.map fun s => s.buffers.toNat).sum := by
  induction l with
  | nil => rfl
  | cons s l ih =>
    have hi := sideSum_append .input [s] l
    have ho := sideSum_append .output [s] l
    rw [sideSum_singleton] at hi ho
    rw [List.singleton_append] at hi ho
    rw [hi, ho, List.map_cons, List.sum_cons, ← ih]
    cases s.side
    · simp only [if_true, reduceCtorEq, if_false]
      omega
    · simp only [if_true, reduceCtorEq, if_false]
      omega

namespace Accounts

variable {p : Plan} {l : List Share}

/-- One share more. -/
theorem push (h : p.Accounts l) (s : Share) : (p.push s).Accounts (l ++ [s]) := by
  obtain ⟨hs, hi, ho⟩ := h
  unfold Plan.push
  cases hside : s.side with
  | input =>
    refine ⟨by rw [hs], ?_, ?_⟩
    · rw [sideSum_append, sideSum_singleton, if_pos hside, toNat_add, hi]
      omega
    · rw [sideSum_append, sideSum_singleton, if_neg (by rw [hside]; decide), Nat.add_zero]
      exact ho
  | output =>
    refine ⟨by rw [hs], ?_, ?_⟩
    · rw [sideSum_append, sideSum_singleton, if_neg (by rw [hside]; decide), Nat.add_zero]
      exact hi
    · rw [sideSum_append, sideSum_singleton, if_pos hside, toNat_add, ho]
      omega

/-- A whole run of shares. -/
theorem foldl_push (h : p.Accounts l) (m : List Share) :
    (m.foldl Plan.push p).Accounts (l ++ m) := by
  induction m generalizing p l with
  | nil => rwa [List.append_nil]
  | cons s m ih =>
    rw [List.foldl_cons, List.append_cons]
    exact ih (h.push s)

/-- The clamps of the sides do not show in the total. -/
theorem total (h : p.Accounts l) :
    p.total.toNat = min (sideSum .input l + sideSum .output l) top := by
  rw [Plan.total, toNat_add, h.inputs, h.outputs, min_min_add_min]

end Accounts

theorem accounts_ofShares (l : List Share) : (ofShares l).Accounts l :=
  Accounts.foldl_push (p := {}) (l := []) ⟨rfl, rfl, rfl⟩ l

end Plan

/-! ## The stages of a run -/

namespace Task

/-- A run of the planner, stage by stage. The shares of inputs are given without fail. -/
theorem outcome_plan (policy : Gate.Policy) (t : Tuning) (task : Task) :
    (task.plan policy t).outcome = (do
      let ins ← task.inputs.resolve
      let outs ← task.outputs.resolve
      let shares ← outs.mapM fun e => (e.share t).outcome
      return Plan.ofShares (ins.map (InputEdge.planned policy t) ++ shares)) := by
  have inputShares (ins : List InputEdge) :
      (ins.mapM fun e => (e.share policy t).outcome) =
        .ok (ins.map (InputEdge.planned policy t)) := by
    simp only [InputEdge.outcome_share]
    exact List.mapM_pure
  rw [plan, Traced.outcome_bind]
  refine congrArg (_ >>= ·) (funext fun ins => ?_)
  rw [Traced.outcome_bind, Traced.outcome_mapM, inputShares]
  show (_ >>= _ : Traced Plan).outcome = _
  rw [Traced.outcome_bind]
  refine congrArg (_ >>= ·) (funext fun outs => ?_)
  rw [Traced.outcome_bind, Traced.outcome_mapM]
  rfl

theorem plan_eq_ok_iff {p : Plan} :
    (task.plan policy t).outcome = .ok p ↔
      ∃ ins outs shares, task.inputs.resolve = .ok ins ∧ task.outputs.resolve = .ok outs ∧
        (outs.mapM fun e => (e.share t).outcome) = .ok shares ∧
        Plan.ofShares (ins.map (InputEdge.planned policy t) ++ shares) = p := by
  simp only [outcome_plan, bind_eq_ok_iff]
  constructor
  · rintro ⟨ins, hins, outs, houts, shares, hshares, hp⟩
    exact ⟨ins, outs, shares, hins, houts, hshares, Except.ok.inj hp⟩
  · rintro ⟨ins, outs, shares, hins, houts, hshares, rfl⟩
    exact ⟨ins, hins, outs, houts, shares, hshares, rfl⟩

theorem plan_eq_error_iff {x : PlanError} :
    (task.plan policy t).outcome = .error x ↔
      task.inputs.resolve = .error x ∨
        ∃ ins, task.inputs.resolve = .ok ins ∧
          (task.outputs.resolve = .error x ∨
            ∃ outs, task.outputs.resolve = .ok outs ∧
              (outs.mapM fun e => (e.share t).outcome) = .error x) := by
  simp only [outcome_plan, bind_eq_error_iff]
  refine or_congr_right (exists_congr fun ins => and_congr_right fun _ => ?_)
  refine or_congr_right (exists_congr fun outs => and_congr_right fun _ => ?_)
  exact or_iff_left fun ⟨shares, _, h⟩ => by cases h

/-- What is announced is the total of the plan. -/
theorem announcement_eq_ok_iff {n : UInt64} :
    (task.announcement policy t).outcome = .ok n ↔
      ∃ p, (task.plan policy t).outcome = .ok p ∧ p.total = n := by
  rw [announcement, Traced.outcome_map, map_eq_ok_iff]

end Task

end BufferPlan
