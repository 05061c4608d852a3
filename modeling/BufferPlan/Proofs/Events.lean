import BufferPlan.Proofs.Fit

/-!
# What a fit reports

The events of a fit come from three places: every planned edge reports itself, a pool without a
ceiling is refused with an event of its own, and the fit compares its two numbers once more to warn
of a shortfall. A run that fails keeps what was reported before, so the log ends at a different
place for each way to fail. `Task.Reports` tells the log from the edges of the task; a `LogLine` is
what is seen of an event.

* `Traced.events_mapM_of_ok`, `Traced.events_mapM_of_error`: the events of a traversal are those of
  its elements, up to and with the first that fails.
* `Fit.isShort_eq_not_fits`: the warning is given exactly where the announcement does not fit.
* `Task.reports_iff`: the log of a fit is the one that `Reports` tells.
* `Task.log_of_fit`: the law of the log, and what its levels say of the result.
-/

namespace BufferPlan

variable {policy : Gate.Policy} {t : Tuning} {task : Task}

/-! ## Events of composed runs -/

namespace Traced

variable {α β : Type} {x : Traced α} {f : α → Traced β}

theorem events_bind_of_ok {a : α} (h : x.outcome = .ok a) :
    (x >>= f).events = x.events ++ (f a).events := by
  show (x.andThen f).events = _
  rw [andThen, h]

theorem events_bind_of_error {e : PlanError} (h : x.outcome = .error e) :
    (x >>= f).events = x.events := by
  show (x.andThen f).events = _
  rw [andThen, h]

/-- A run that is only renamed at its end reports the same. -/
theorem events_map (g : α → β) (x : Traced α) : (g <$> x).events = x.events := by
  obtain ⟨es, r⟩ := x
  cases r with
  | ok a => exact List.append_nil es
  | error e => rfl

/-- A traversal without a failure reports what its elements report. -/
theorem events_mapM_of_ok {l : List α} (h : ∀ a ∈ l, ∃ b, (f a).outcome = .ok b) :
    (l.mapM f).events = l.flatMap fun a => (f a).events := by
  induction l with
  | nil => rfl
  | cons a l ih =>
    obtain ⟨⟨b, hb⟩, hl⟩ := List.forall_mem_cons.mp h
    rw [List.mapM_cons, events_bind_of_ok hb, ← map_eq_pure_bind, events_map, ih hl,
      List.flatMap_cons]

/-- A traversal reports up to and with the first element that fails. -/
theorem events_mapM_of_error {done rest : List α} {a : α} {e : PlanError}
    (h : ∀ d ∈ done, ∃ b, (f d).outcome = .ok b) (ha : (f a).outcome = .error e) :
    ((done ++ a :: rest).mapM f).events =
      (done.flatMap fun d => (f d).events) ++ (f a).events := by
  induction done with
  | nil => rw [List.nil_append, List.mapM_cons, events_bind_of_error ha, List.flatMap_nil,
      List.nil_append]
  | cons d done ih =>
    obtain ⟨⟨b, hb⟩, hdone⟩ := List.forall_mem_cons.mp h
    rw [List.cons_append, List.mapM_cons, events_bind_of_ok hb, ← map_eq_pure_bind, events_map,
      ih hdone, List.flatMap_cons, List.append_assoc]

end Traced

/-! ## Lines of the log -/

/-- What is seen of an event. -/
structure LogLine where
  level : Level
  message : String
  fields : List (String × Datum)
deriving DecidableEq, Repr

/-- The line reports no more than one planned edge. -/
def LogLine.Routine (l : LogLine) : Prop :=
  l.level = .debug ∧ l.message ≠ "network buffer announcement"

/-- The line of an event. -/
def Event.line (e : Event) : LogLine := ⟨e.level, e.message, e.fields⟩

/-- The line of a planned input edge. -/
def InputEdge.line (policy : Gate.Policy) (t : Tuning) (e : InputEdge) : LogLine :=
  ⟨.debug, "planned input gate",
    [("edge", .text e.id.hex), ("kind", .text e.kind.name), ("channels", .count e.channels.word),
      ("reuse_count", .count e.reuse.toUInt64), ("buffers", .count (e.announced policy t))]⟩

namespace OutputEdge

/-- An output edge of a live kind that has no ceiling. -/
def Refused (e : OutputEdge) : Prop := e.kind = .pipelined ∨ e.kind = .pipelinedApproximate

instance (e : OutputEdge) : Decidable e.Refused :=
  inferInstanceAs (Decidable (e.kind = .pipelined ∨ e.kind = .pipelinedApproximate))

/-- The line of a planned output edge, with what the edge announces. -/
def Logged (t : Tuning) (e : OutputEdge) (line : LogLine) : Prop :=
  ∃ n, (e.announce t).outcome = .ok n ∧
    line = ⟨.debug, "planned result partition",
      [("edge", .text e.id.hex), ("kind", .text e.kind.name),
        ("subpartitions", .count e.subpartitions.word), ("buffers", .count n)]⟩

/-- The line of a refused output edge. -/
def refusal (e : OutputEdge) : LogLine :=
  ⟨.error, "refusing to announce an unbounded result partition pool", [("kind", .text e.kind.name)]⟩

end OutputEdge

/-- The line of a planned task. -/
def Plan.summary (p : Plan) : LogLine :=
  ⟨.debug, "network buffer announcement",
    [("inputs", .count p.inputsTotal), ("outputs", .count p.outputsTotal),
      ("total", .count p.total)]⟩

/-- The warning of a fit. -/
def Fit.warning (r : Fit) : LogLine :=
  ⟨.warn, "announcement does not cover pool footprint",
    [("announced", .count r.announced), ("footprint", .text (Event.optionalCount r.footprint?))]⟩

/-- **The log of a fit.** Nothing is reported before the inputs are joined, and nothing of the
outputs before these are. The first refused output ends the log. -/
inductive Task.Reports (policy : Gate.Policy) (t : Tuning) (task : Task) : List LogLine → Prop
  | noInputs {x : PlanError} (inputs : task.inputs.resolve = .error x) : Reports policy t task []
  | noOutputs {ins : List InputEdge} {x : PlanError} (inputs : task.inputs.resolve = .ok ins)
      (outputs : task.outputs.resolve = .error x) :
      Reports policy t task (ins.map (InputEdge.line policy t))
  | refused {ins : List InputEdge} {done rest : List OutputEdge} {e : OutputEdge}
      {lines : List LogLine} (inputs : task.inputs.resolve = .ok ins)
      (outputs : task.outputs.resolve = .ok (done ++ e :: rest))
      (accepted : ∀ d ∈ done, ¬ d.Refused) (logged : List.Forall₂ (OutputEdge.Logged t) done lines)
      (refused : e.Refused) :
      Reports policy t task (ins.map (InputEdge.line policy t) ++ lines ++ [e.refusal])
  | planned {ins : List InputEdge} {outs : List OutputEdge} {lines : List LogLine} {p : Plan}
      {r : Fit} (inputs : task.inputs.resolve = .ok ins) (outputs : task.outputs.resolve = .ok outs)
      (accepted : ∀ e ∈ outs, ¬ e.Refused) (logged : List.Forall₂ (OutputEdge.Logged t) outs lines)
      (plan : (task.plan policy t).outcome = .ok p) (fit : (task.fit policy t).outcome = .ok r) :
      Reports policy t task
        (ins.map (InputEdge.line policy t) ++ lines ++
          p.summary :: if r.fits then [] else [r.warning])

/-! ## The events of one edge -/

theorem InputEdge.lines_share (e : InputEdge) :
    (e.share policy t).events.map Event.line = [e.line policy t] := rfl

namespace OutputEdge

variable {e : OutputEdge}

theorem announced?_eq_none_iff : e.announced? t = none ↔ e.Refused :=
  Partition.announced?_eq_none_iff

theorem exists_share_of_not_refused (h : ¬ e.Refused) : ∃ s, (e.share t).outcome = .ok s := by
  cases hn : e.announced? t with
  | none => exact absurd (announced?_eq_none_iff.mp hn) h
  | some n => exact ⟨_, share_eq_ok_iff.mpr ⟨n, hn, rfl⟩⟩

theorem share_of_refused (h : e.Refused) :
    (e.share t).outcome = .error (.unbounded (some e.id) e.kind) :=
  share_eq_error_iff.mpr ⟨h, rfl⟩

theorem exists_logged_of_not_refused (h : ¬ e.Refused) : ∃ line, e.Logged t line := by
  cases hn : e.announced? t with
  | none => exact absurd (announced?_eq_none_iff.mp hn) h
  | some n => exact ⟨_, n, announce_eq_ok_iff.mpr hn, rfl⟩

theorem events_share (e : OutputEdge) :
    (e.share t).events =
      match e.announced? t with
      | some n => [.outputPlanned e.id e.kind e.subpartitions n]
      | none => [.refused e.kind] := by
  unfold share announce Partition.announce announced?
  cases Partition.announced? e.kind (Partition.bounds e.kind e.subpartitions t) <;> rfl

theorem lines_share_of_logged {line : LogLine} (h : e.Logged t line) :
    (e.share t).events.map Event.line = [line] := by
  obtain ⟨n, hn, rfl⟩ := h
  rw [events_share, announce_eq_ok_iff.mp hn]
  rfl

theorem lines_share_of_refused (h : e.Refused) :
    (e.share t).events.map Event.line = [e.refusal] := by
  rw [events_share, announced?_eq_none_iff.mpr h]
  rfl

/-- The first refused edge ends the traversal, with its own error. -/
theorem mapM_share_of_refused {done rest : List OutputEdge} (haccepted : ∀ d ∈ done, ¬ d.Refused)
    (hrefused : e.Refused) :
    ((done ++ e :: rest).mapM fun d => (d.share t).outcome) =
      .error (.unbounded (some e.id) e.kind) := by
  refine mapM_eq_error_iff_find?.mpr ⟨e, ?_, share_of_refused hrefused⟩
  refine List.find?_eq_some_iff_append.mpr ⟨?_, done, rest, rfl, fun d hd => ?_⟩
  · rw [share_of_refused hrefused]
    rfl
  · obtain ⟨s, hs⟩ := exists_share_of_not_refused (t := t) (haccepted d hd)
    rw [hs]
    rfl

/-- The lines of planned output edges, one for each. -/
theorem lines_of_forall₂_logged {outs : List OutputEdge} {lines : List LogLine}
    (h : List.Forall₂ (Logged t) outs lines) :
    (outs.flatMap fun e => (e.share t).events).map Event.line = lines := by
  induction h with
  | nil => rfl
  | cons hlog _ ih =>
    rw [List.flatMap_cons, List.map_append, ih, lines_share_of_logged hlog, List.singleton_append]

theorem exists_forall₂_logged {outs : List OutputEdge} (h : ∀ e ∈ outs, ¬ e.Refused) :
    ∃ lines, List.Forall₂ (Logged t) outs lines := by
  induction outs with
  | nil => exact ⟨[], .nil⟩
  | cons e outs ih =>
    obtain ⟨he, houts⟩ := List.forall_mem_cons.mp h
    obtain ⟨line, hline⟩ := exists_logged_of_not_refused he
    obtain ⟨lines, hlines⟩ := ih houts
    exact ⟨line :: lines, .cons hline hlines⟩

end OutputEdge

/-! ## The log of a plan -/

namespace Task

/-- The lines of the planned inputs come first, then those of what is done with the outputs. -/
theorem lines_plan_of_inputs {ins : List InputEdge} (hins : task.inputs.resolve = .ok ins) :
    (task.plan policy t).events.map Event.line =
      ins.map (InputEdge.line policy t) ++
        (do
          let outs ← Traced.ofExcept task.outputs.resolve
          let shares ← outs.mapM (OutputEdge.share t)
          let p := Plan.ofShares (ins.map (InputEdge.planned policy t) ++ shares)
          Traced.report (.announced p.inputsTotal p.outputsTotal p.total)
          return p : Traced Plan).events.map Event.line := by
  have houtcome : (ins.mapM (InputEdge.share policy t)).outcome =
      .ok (ins.map (InputEdge.planned policy t)) := by
    rw [Traced.outcome_mapM]
    exact List.mapM_pure
  have hlines : (ins.mapM (InputEdge.share policy t)).events.map Event.line =
      ins.map (InputEdge.line policy t) := by
    rw [Traced.events_mapM_of_ok fun e _ => ⟨_, e.outcome_share⟩, List.map_flatMap]
    simp only [InputEdge.lines_share]
    exact List.map_eq_flatMap.symm
  rw [plan, Traced.events_bind_of_ok (x := Traced.ofExcept task.inputs.resolve) hins,
    Traced.events_bind_of_ok houtcome, List.map_append, List.map_append, hlines]
  rfl

theorem lines_plan_of_noInputs {x : PlanError} (hins : task.inputs.resolve = .error x) :
    (task.plan policy t).events.map Event.line = [] := by
  rw [plan, Traced.events_bind_of_error (x := Traced.ofExcept task.inputs.resolve) hins]
  rfl

section

variable {ins : List InputEdge} (hins : task.inputs.resolve = .ok ins)
include hins

theorem lines_plan_of_noOutputs {x : PlanError} (houts : task.outputs.resolve = .error x) :
    (task.plan policy t).events.map Event.line = ins.map (InputEdge.line policy t) := by
  rw [lines_plan_of_inputs hins,
    Traced.events_bind_of_error (x := Traced.ofExcept task.outputs.resolve) houts]
  exact List.append_nil _

theorem lines_plan_of_refused {done rest : List OutputEdge} {e : OutputEdge} {lines : List LogLine}
    (houts : task.outputs.resolve = .ok (done ++ e :: rest)) (haccepted : ∀ d ∈ done, ¬ d.Refused)
    (hlogged : List.Forall₂ (OutputEdge.Logged t) done lines) (hrefused : e.Refused) :
    (task.plan policy t).events.map Event.line =
      ins.map (InputEdge.line policy t) ++ lines ++ [e.refusal] := by
  have hshares : ((done ++ e :: rest).mapM (OutputEdge.share t)).outcome =
      .error (.unbounded (some e.id) e.kind) := by
    rw [Traced.outcome_mapM]
    exact OutputEdge.mapM_share_of_refused haccepted hrefused
  rw [lines_plan_of_inputs hins,
    Traced.events_bind_of_ok (x := Traced.ofExcept task.outputs.resolve) houts,
    Traced.events_bind_of_error hshares,
    Traced.events_mapM_of_error
      (fun d hd => OutputEdge.exists_share_of_not_refused (haccepted d hd))
      (OutputEdge.share_of_refused hrefused),
    List.map_append, List.map_append, OutputEdge.lines_of_forall₂_logged hlogged,
    OutputEdge.lines_share_of_refused hrefused, List.append_assoc]
  rfl

theorem lines_plan_of_planned {outs : List OutputEdge} {lines : List LogLine} {p : Plan}
    (houts : task.outputs.resolve = .ok outs) (haccepted : ∀ e ∈ outs, ¬ e.Refused)
    (hlogged : List.Forall₂ (OutputEdge.Logged t) outs lines)
    (hplan : (task.plan policy t).outcome = .ok p) :
    (task.plan policy t).events.map Event.line =
      ins.map (InputEdge.line policy t) ++ lines ++ [p.summary] := by
  obtain ⟨ins', outs', shares, hins', houts', hshares, rfl⟩ := plan_eq_ok_iff.mp hplan
  obtain rfl : ins = ins' := Except.ok.inj (hins.symm.trans hins')
  obtain rfl : outs = outs' := Except.ok.inj (houts.symm.trans houts')
  rw [← Traced.outcome_mapM] at hshares
  rw [lines_plan_of_inputs hins,
    Traced.events_bind_of_ok (x := Traced.ofExcept task.outputs.resolve) houts,
    Traced.events_bind_of_ok hshares,
    Traced.events_mapM_of_ok fun e he => OutputEdge.exists_share_of_not_refused (haccepted e he),
    List.map_append, List.map_append, OutputEdge.lines_of_forall₂_logged hlogged,
    List.append_assoc]
  rfl

end

end Task

/-! ## The log of a fit -/

/-- The warning is decided apart from the result, and the two agree. -/
theorem Fit.isShort_eq_not_fits (r : Fit) : r.isShort = !r.fits := by
  unfold isShort fits
  cases r.footprint? with
  | none => rfl
  | some footprint =>
    by_cases h : footprint ≤ r.announced
    · simp [h, UInt64.not_lt.mpr h]
    · simp [h, UInt64.not_le.mp h]

namespace Task

/-- A fit fails where the plan does, and reports nothing more. -/
theorem events_fit_of_error {x : PlanError} (h : (task.plan policy t).outcome = .error x) :
    (task.fit policy t).events = (task.plan policy t).events := by
  have hann : (task.announcement policy t).outcome = .error x := by
    rw [announcement, Traced.outcome_map, h]
    rfl
  rw [fit, Traced.events_bind_of_error hann]
  exact Traced.events_map _ _

/-- A fit that succeeds reports the plan, and warns of a shortfall. -/
theorem events_fit_of_ok {r : Fit} (h : (task.fit policy t).outcome = .ok r) :
    (task.fit policy t).events =
      (task.plan policy t).events ++
        if r.fits then [] else [.shortfall r.announced r.footprint?] := by
  rw [outcome_fit] at h
  obtain ⟨n, hn, h⟩ := bind_eq_ok_iff.mp h
  obtain ⟨pools, hpools, h⟩ := bind_eq_ok_iff.mp h
  obtain rfl := Except.ok.inj h
  rw [fit, Traced.events_bind_of_ok hn,
    Traced.events_bind_of_ok (x := Traced.ofExcept (task.pools t)) hpools, announcement,
    Traced.events_map]
  dsimp only
  rw [Fit.isShort_eq_not_fits]
  cases (Fit.mk n (footprint? pools)).fits with
  | true => rfl
  | false => rfl

section

variable {ins : List InputEdge} (hins : task.inputs.resolve = .ok ins)
include hins

theorem plan_eq_error_of_refused {done rest : List OutputEdge} {e : OutputEdge}
    (houts : task.outputs.resolve = .ok (done ++ e :: rest)) (haccepted : ∀ d ∈ done, ¬ d.Refused)
    (hrefused : e.Refused) :
    (task.plan policy t).outcome = .error (.unbounded (some e.id) e.kind) :=
  plan_eq_error_iff.mpr (Or.inr ⟨ins, hins, Or.inr ⟨_, houts,
    OutputEdge.mapM_share_of_refused haccepted hrefused⟩⟩)

end

/-- What is told is the log of the fit. -/
theorem Reports.lines_fit {lines : List LogLine} (h : task.Reports policy t lines) :
    (task.fit policy t).events.map Event.line = lines := by
  cases h with
  | noInputs hins =>
    rw [events_fit_of_error (plan_eq_error_iff.mpr (Or.inl hins)), lines_plan_of_noInputs hins]
  | noOutputs hins houts =>
    rw [events_fit_of_error (plan_eq_error_iff.mpr (Or.inr ⟨_, hins, Or.inl houts⟩)),
      lines_plan_of_noOutputs hins houts]
  | refused hins houts haccepted hlogged hrefused =>
    rw [events_fit_of_error (plan_eq_error_of_refused hins houts haccepted hrefused),
      lines_plan_of_refused hins houts haccepted hlogged hrefused]
  | planned hins houts haccepted hlogged hplan hfit =>
    rw [events_fit_of_ok hfit, List.map_append,
      lines_plan_of_planned hins houts haccepted hlogged hplan, List.append_assoc _ [_]]
    cases Fit.fits _ with
    | true => rfl
    | false => rfl

/-- Some log is told of every fit. -/
theorem exists_reports (policy : Gate.Policy) (t : Tuning) (task : Task) :
    ∃ lines, task.Reports policy t lines := by
  cases hins : task.inputs.resolve with
  | error x => exact ⟨_, .noInputs hins⟩
  | ok ins =>
    cases houts : task.outputs.resolve with
    | error x => exact ⟨_, .noOutputs hins houts⟩
    | ok outs =>
      cases hfirst : outs.find? fun e => decide e.Refused with
      | some e =>
        obtain ⟨hrefused, done, rest, rfl, haccepted⟩ := List.find?_eq_some_iff_append.mp hfirst
        have haccepted : ∀ d ∈ done, ¬ d.Refused := fun d hd => by simpa using haccepted d hd
        obtain ⟨lines, hlines⟩ := OutputEdge.exists_forall₂_logged (t := t) haccepted
        exact ⟨_, .refused hins houts haccepted hlines (of_decide_eq_true hrefused)⟩
      | none =>
        have haccepted : ∀ e ∈ outs, ¬ e.Refused := by simpa using hfirst
        obtain ⟨lines, hlines⟩ := OutputEdge.exists_forall₂_logged (t := t) haccepted
        obtain ⟨shares, hshares⟩ := exists_mapM_eq_ok_iff.mpr fun e he =>
          OutputEdge.exists_share_of_not_refused (t := t) (haccepted e he)
        have hplan : (task.plan policy t).outcome = .ok _ :=
          plan_eq_ok_iff.mpr ⟨ins, outs, shares, hins, houts, hshares, rfl⟩
        obtain ⟨d, -, hfit⟩ :=
          outcome_fit_of_announcement (announcement_eq_ok_iff.mpr ⟨_, hplan, rfl⟩)
        exact ⟨_, .planned hins houts haccepted hlines hplan hfit⟩

/-- **The log of a fit is the one that is told of its edges.** -/
theorem reports_iff {lines : List LogLine} :
    task.Reports policy t lines ↔ (task.fit policy t).events.map Event.line = lines := by
  constructor
  · exact Reports.lines_fit
  · rintro rfl
    obtain ⟨lines, h⟩ := exists_reports policy t task
    rwa [h.lines_fit]

/-! ## What the log says of the result -/

/-- The edges that were planned are reported in routine lines. -/
theorem routine_of_mem {ins : List InputEdge} {outs : List OutputEdge} {lines : List LogLine}
    (h : List.Forall₂ (OutputEdge.Logged t) outs lines) {l : LogLine}
    (hl : l ∈ ins.map (InputEdge.line policy t) ++ lines) : l.Routine := by
  rcases List.mem_append.mp hl with hl | hl
  · obtain ⟨e, -, rfl⟩ := List.mem_map.mp hl
    exact ⟨rfl, by simp [InputEdge.line]⟩
  · induction h with
    | nil => cases hl
    | cons hlogged _ ih =>
      rcases List.mem_cons.mp hl with rfl | hl
      · obtain ⟨n, -, rfl⟩ := hlogged
        exact ⟨rfl, by simp⟩
      · exact ih (List.mem_append_right _ hl) hl

/-- **How a log ends.** Nothing follows the routine lines where a join fails; a refusal follows them
where an output is refused, and a summary where the fit succeeds. -/
theorem Reports.ending {lines : List LogLine} (h : task.Reports policy t lines) :
    ∃ routine ending, lines = routine ++ ending ∧ (∀ l ∈ routine, l.Routine) ∧
      ((ending = [] ∧ ∃ i f, (task.fit policy t).outcome = .error (.badEdge i f)) ∨
        (∃ e : OutputEdge, ending = [e.refusal] ∧
          (task.fit policy t).outcome = .error (.unbounded (some e.id) e.kind)) ∨
        ∃ p r, ending = Plan.summary p :: (if r.fits then [] else [r.warning]) ∧
          (task.fit policy t).outcome = .ok r) := by
  have hfit {x : PlanError} (hplan : (task.plan policy t).outcome = .error x) :
      (task.fit policy t).outcome = .error x := by
    rw [fit_eq_error_iff, announcement, Traced.outcome_map, hplan]
    rfl
  cases h with
  | noInputs hins =>
    obtain ⟨i, f, -, -, rfl⟩ := Inputs.resolve_eq_error_iff.mp hins
    have hplan : (task.plan policy t).outcome = .error _ := plan_eq_error_iff.mpr (Or.inl hins)
    exact ⟨[], [], rfl, by simp, Or.inl ⟨rfl, i, f, hfit hplan⟩⟩
  | noOutputs hins houts =>
    obtain ⟨i, f, -, -, rfl⟩ := Outputs.resolve_eq_error_iff.mp houts
    have hplan : (task.plan policy t).outcome = .error _ :=
      plan_eq_error_iff.mpr (Or.inr ⟨_, hins, Or.inl houts⟩)
    refine ⟨_, [], (List.append_nil _).symm, fun l hl => ?_, Or.inl ⟨rfl, i, f, hfit hplan⟩⟩
    exact routine_of_mem (t := t) .nil (List.mem_append_left [] hl)
  | refused hins houts haccepted hlogged hrefused =>
    refine ⟨_, _, rfl, fun l => routine_of_mem hlogged, Or.inr (Or.inl ⟨_, rfl, ?_⟩)⟩
    exact hfit (plan_eq_error_of_refused hins houts haccepted hrefused)
  | planned hins houts haccepted hlogged hplan hr =>
    exact ⟨_, _, rfl, fun l => routine_of_mem hlogged, Or.inr (Or.inr ⟨_, _, rfl, hr⟩)⟩

/-- What no routine line shows is shown by the end of the log or not at all. -/
theorem exists_mem_append_iff_of_routine {routine ending : List LogLine} {P : LogLine → Prop}
    (hroutine : ∀ l ∈ routine, l.Routine) (hP : ∀ l : LogLine, l.Routine → ¬ P l) :
    (∃ l ∈ routine ++ ending, P l) ↔ ∃ l ∈ ending, P l := by
  constructor
  · rintro ⟨l, hl, hPl⟩
    rcases List.mem_append.mp hl with hl | hl
    · exact absurd hPl (hP l (hroutine l hl))
    · exact ⟨l, hl, hPl⟩
  · rintro ⟨l, hl, hPl⟩
    exact ⟨l, List.mem_append_right _ hl, hPl⟩

section

variable (policy : Gate.Policy) (t : Tuning) (task : Task)

/-- A summary is written iff the fit succeeds. -/
theorem exists_summary_iff :
    (∃ l ∈ (task.fit policy t).events.map Event.line, l.message = "network buffer announcement") ↔
      ∃ r, (task.fit policy t).outcome = .ok r := by
  obtain ⟨lines, h⟩ := exists_reports policy t task
  obtain ⟨routine, ending, rfl, hroutine, hending⟩ := h.ending
  rw [h.lines_fit, exists_mem_append_iff_of_routine hroutine fun l hl => hl.2]
  rcases hending with ⟨rfl, i, f, hfit⟩ | ⟨e, rfl, hfit⟩ | ⟨p, r, rfl, hfit⟩
  · simp [hfit]
  · simp [hfit, OutputEdge.refusal]
  · simp [hfit, Plan.summary]

/-- An error is written iff an output is refused. -/
theorem exists_error_iff :
    (∃ l ∈ (task.fit policy t).events.map Event.line, l.level = .error) ↔
      ∃ edge? kind, (task.fit policy t).outcome = .error (.unbounded edge? kind) := by
  obtain ⟨lines, h⟩ := exists_reports policy t task
  obtain ⟨routine, ending, rfl, hroutine, hending⟩ := h.ending
  rw [h.lines_fit, exists_mem_append_iff_of_routine hroutine fun l hl => by rw [hl.1]; decide]
  rcases hending with ⟨rfl, i, f, hfit⟩ | ⟨e, rfl, hfit⟩ | ⟨p, r, rfl, hfit⟩
  · simp [hfit]
  · simp [hfit, OutputEdge.refusal]
  · cases hr : r.fits
    · simp [hfit, Plan.summary, Fit.warning]
    · simp [hfit, Plan.summary]

/-- A warning is written iff the fit succeeds with a report that does not fit. -/
theorem exists_warn_iff :
    (∃ l ∈ (task.fit policy t).events.map Event.line, l.level = .warn) ↔
      ∃ r, (task.fit policy t).outcome = .ok r ∧ r.fits = false := by
  obtain ⟨lines, h⟩ := exists_reports policy t task
  obtain ⟨routine, ending, rfl, hroutine, hending⟩ := h.ending
  rw [h.lines_fit, exists_mem_append_iff_of_routine hroutine fun l hl => by rw [hl.1]; decide]
  rcases hending with ⟨rfl, i, f, hfit⟩ | ⟨e, rfl, hfit⟩ | ⟨p, r, rfl, hfit⟩
  · simp [hfit]
  · simp [hfit, OutputEdge.refusal]
  · cases hr : r.fits
    · simp [hfit, hr, Plan.summary, Fit.warning]
    · simp [hfit, hr, Plan.summary]

/-- The standing policy covers its pools, so it never warns. -/
theorem level_ne_warn_of_standing {l : LogLine}
    (hl : l ∈ (task.fit .standing t).events.map Event.line) : l.level ≠ .warn := by
  intro hwarn
  obtain ⟨r, hr, hfits⟩ := (exists_warn_iff .standing t task).mp ⟨l, hl, hwarn⟩
  rw [outcome_fit] at hr
  obtain ⟨n, hn, -⟩ := bind_eq_ok_iff.mp hr
  obtain ⟨d, hd, hfit⟩ := outcome_fit_of_announcement hn
  obtain rfl := Except.ok.inj (hn.symm.trans hd)
  rw [← outcome_fit, hfit] at hr
  rw [← Except.ok.inj hr, fits_iff.mpr (UInt64.le_refl n)] at hfits
  cases hfits

/-- **The law of the log.** The log of a fit is the one that is told of its edges, which are listed
ascending by id. It has a summary iff the fit succeeds, an error iff an output is refused and a
warning iff the fit succeeds with a report that does not fit; the standing policy never warns. -/
theorem log_of_fit :
    (∀ lines, (task.fit policy t).events.map Event.line = lines ↔ task.Reports policy t lines) ∧
    (∀ ins, task.inputs.resolve = .ok ins → ins.Pairwise fun a b => a.id < b.id) ∧
    (∀ outs, task.outputs.resolve = .ok outs → outs.Pairwise fun a b => a.id < b.id) ∧
    ((∃ l ∈ (task.fit policy t).events.map Event.line, l.message = "network buffer announcement") ↔
      ∃ r, (task.fit policy t).outcome = .ok r) ∧
    ((∃ l ∈ (task.fit policy t).events.map Event.line, l.level = .error) ↔
      ∃ edge? kind, (task.fit policy t).outcome = .error (.unbounded edge? kind)) ∧
    ((∃ l ∈ (task.fit policy t).events.map Event.line, l.level = .warn) ↔
      ∃ r, (task.fit policy t).outcome = .ok r ∧ r.fits = false) ∧
    ∀ l ∈ (task.fit .standing t).events.map Event.line, l.level ≠ .warn := by
  refine ⟨fun _ => reports_iff.symm, fun _ => Inputs.ascending_of_resolve,
    fun _ => Outputs.ascending_of_resolve, exists_summary_iff policy t task,
    exists_error_iff policy t task, exists_warn_iff policy t task, ?_⟩
  intro l hl
  exact level_ne_warn_of_standing t task hl

end

end Task

end BufferPlan
