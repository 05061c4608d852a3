import BufferPlan.Proofs.Events
import BufferPlan.Proofs.Shares
import BufferPlan.Proofs.Text.Hex
import Mathlib.Data.List.Sort
import Mathlib.Data.String.Basic

/-!
# Edges in the order of their texts

The text of an id has a fixed width and lower-case digits only, so the texts of ids are ordered as
the ids are. Whoever has nothing but the texts of edges, from a log for instance, gets the order in
which they were visited by sorting them: so do the plan, the pools and the log list the edges of a
side.

* `EdgeId.mergeSort_eq`: sorting the texts of ids that ascend gives the texts of the ids in order.
* `Task.edges_pools`: the pools of a side are those of its counted ids, in order.
* `Task.Reports.named_prefix`, `Task.Reports.named_of_fit`: the edges that a log names, up to where
  it ends.
* **`Task.edges_listed_as_texts_sort`**: the text of an id, its order, and what is listed in it.
-/

namespace BufferPlan

/-- Ids that ascend are listed as sorting lists their texts, in whatever order it is given these. -/
theorem EdgeId.mergeSort_eq {ids : List EdgeId} (hids : ids.Pairwise (· < ·)) {texts : List String}
    (h : texts.Perm (ids.map hex)) : texts.mergeSort (· ≤ ·) = ids.map hex := by
  have hascending : (ids.map hex).Pairwise (· ≤ ·) :=
    List.pairwise_map.mpr (hids.imp fun hlt => le_of_lt (hex_lt_hex_iff.mpr hlt))
  have hsorted : (texts.mergeSort (· ≤ ·)).Pairwise (· ≤ ·) :=
    List.pairwise_mergeSort' (· ≤ ·) texts
  exact ((List.mergeSort_perm texts _).trans h).eq_of_pairwise' hsorted hascending

variable {policy : Gate.Policy} {t : Tuning} {task : Task} {side : Side}

/-! ## The edges that a log names -/

/-- The message of the lines that report the planned edges of a side. -/
def Side.message : Side → String
  | .input => "planned input gate"
  | .output => "planned result partition"

/-- The text of the edge, if the line reports a planned edge of that side. -/
def LogLine.edge? (side : Side) (l : LogLine) : Option String :=
  if l.message = side.message then
    match l.fields.lookup "edge" with
    | some (.text s) => some s
    | _ => none
  else none

theorem InputEdge.filterMap_line (ins : List InputEdge) :
    (ins.map (line policy t)).filterMap (LogLine.edge? side) =
      if side = .input then ins.map fun e => e.id.hex else [] := by
  induction ins with
  | nil => cases side <;> rfl
  | cons e ins ih =>
    rw [List.map_cons, List.filterMap_cons, ih]
    cases side <;> rfl

theorem OutputEdge.filterMap_logged {outs : List OutputEdge} {lines : List LogLine}
    (h : List.Forall₂ (Logged t) outs lines) :
    lines.filterMap (LogLine.edge? side) =
      if side = .output then outs.map fun e => e.id.hex else [] := by
  induction h with
  | nil => cases side <;> rfl
  | @cons e line outs lines hline _ ih =>
    obtain ⟨n, -, rfl⟩ := hline
    rw [List.filterMap_cons, ih]
    cases side <;> rfl

namespace Task

/-- The edges of a side, as a log names them. -/
def named (ins : List InputEdge) (outs : List OutputEdge) : Side → List String
  | .input => ins.map fun e => e.id.hex
  | .output => outs.map fun e => e.id.hex

/-- A log names the edges that it reports, and its end names none. -/
theorem filterMap_lines {ins : List InputEdge} {outs : List OutputEdge}
    {lines ending : List LogLine} (hlogged : List.Forall₂ (OutputEdge.Logged t) outs lines)
    (hending : ending.filterMap (LogLine.edge? side) = []) :
    (ins.map (InputEdge.line policy t) ++ lines ++ ending).filterMap (LogLine.edge? side) =
      named ins outs side := by
  rw [List.filterMap_append, List.filterMap_append, hending, List.append_nil,
    InputEdge.filterMap_line, OutputEdge.filterMap_logged hlogged]
  cases side with
  | input => exact List.append_nil _
  | output => rfl

/-- The edges of joined maps are the counted ids. -/
theorem named_of_resolve {ins : List InputEdge} {outs : List OutputEdge}
    (hins : task.inputs.resolve = .ok ins) (houts : task.outputs.resolve = .ok outs) (side : Side) :
    named ins outs side = (task.ids side).map EdgeId.hex := by
  cases side with
  | input =>
    rw [Task.ids, ← Inputs.ids_of_resolve hins, List.map_map]
    rfl
  | output =>
    rw [Task.ids, ← Outputs.ids_of_resolve houts, List.map_map]
    rfl

/-- **A log names the first of the counted ids of a side.** -/
theorem Reports.named_prefix {lines : List LogLine} (h : task.Reports policy t lines)
    (side : Side) : lines.filterMap (LogLine.edge? side) <+: (task.ids side).map EdgeId.hex := by
  cases h with
  | noInputs hins => exact List.nil_prefix
  | @noOutputs ins x hins houts =>
    rw [InputEdge.filterMap_line]
    cases side with
    | input => rw [Task.ids, ← Inputs.ids_of_resolve hins, List.map_map]; exact List.prefix_rfl
    | output => exact List.nil_prefix
  | @refused ins done rest e lines hins houts haccepted hlogged hrefused =>
    rw [filterMap_lines hlogged (by cases side <;> rfl), ← named_of_resolve hins houts]
    cases side with
    | input => exact List.prefix_rfl
    | output => exact (List.prefix_append done (e :: rest)).map fun e => e.id.hex
  | @planned ins outs lines p r hins houts haccepted hlogged hplan hfit =>
    rw [filterMap_lines hlogged (by cases side <;> cases r.fits <;> rfl),
      named_of_resolve hins houts]

/-- **The log of a fit that succeeds names all of them.** -/
theorem Reports.named_of_fit {lines : List LogLine} (h : task.Reports policy t lines) {r : Fit}
    (hr : (task.fit policy t).outcome = .ok r) (side : Side) :
    lines.filterMap (LogLine.edge? side) = (task.ids side).map EdgeId.hex := by
  obtain ⟨p, hp⟩ : ∃ p, (task.plan policy t).outcome = .ok p := by
    rw [outcome_fit] at hr
    obtain ⟨n, hn, -⟩ := bind_eq_ok_iff.mp hr
    obtain ⟨p, hp, -⟩ := announcement_eq_ok_iff.mp hn
    exact ⟨p, hp⟩
  have hplanned (x : PlanError) : (task.plan policy t).outcome ≠ .error x := by
    rw [hp]
    exact nofun
  cases h with
  | noInputs hins => exact absurd (plan_eq_error_iff.mpr (Or.inl hins)) (hplanned _)
  | noOutputs hins houts =>
    exact absurd (plan_eq_error_iff.mpr (Or.inr ⟨_, hins, Or.inl houts⟩)) (hplanned _)
  | refused hins houts haccepted hlogged hrefused =>
    exact absurd (plan_eq_error_of_refused hins houts haccepted hrefused) (hplanned _)
  | @planned ins outs lines p r hins houts haccepted hlogged hplan hfit =>
    rw [filterMap_lines hlogged (by cases side <;> cases r.fits <;> rfl),
      named_of_resolve hins houts]

/-! ## The edges of pools -/

/-- **The pools of a side are those of its counted ids.** -/
theorem edges_pools {pools : List Pool} (h : task.pools t = .ok pools) (side : Side) :
    (pools.filter fun q => q.side = side).map Pool.edge = task.ids side := by
  obtain ⟨ins, outs, hins, houts, rfl⟩ := pools_eq_ok_iff.mp h
  have hinput : ∀ q ∈ ins.map (InputEdge.pool t), q.side = .input :=
    List.forall_mem_map.mpr fun _ _ => rfl
  have houtput : ∀ q ∈ outs.map (OutputEdge.pool t), q.side = .output :=
    List.forall_mem_map.mpr fun _ _ => rfl
  obtain ⟨hin, hout⟩ := filter_side_append hinput houtput
  cases side with
  | input =>
    rw [hin, List.map_map]
    exact Inputs.ids_of_resolve hins
  | output =>
    rw [hout, List.map_map]
    exact Outputs.ids_of_resolve houts

/-! ## The order of the texts -/

/-- On a side of the task, edges are listed in the order of these texts. -/
structure ListsAs (policy : Gate.Policy) (t : Tuning) (task : Task) (side : Side)
    (texts : List String) : Prop where
  plan : ∀ p, (task.plan policy t).outcome = .ok p →
    ((p.sideShares side).map fun s => s.edge.hex) = texts
  pools : ∀ pools, task.pools t = .ok pools →
    ((pools.filter fun q => q.side = side).map fun q => q.edge.hex) = texts
  /-- A log that ends early names the first of them. -/
  log : ((task.fit policy t).events.map Event.line).filterMap (LogLine.edge? side) <+: texts
  log_of_fit : ∀ r, (task.fit policy t).outcome = .ok r →
    ((task.fit policy t).events.map Event.line).filterMap (LogLine.edge? side) = texts

theorem listsAs_ids (policy : Gate.Policy) (t : Tuning) (task : Task) (side : Side) :
    task.ListsAs policy t side ((task.ids side).map EdgeId.hex) := by
  have hlog : task.Reports policy t ((task.fit policy t).events.map Event.line) :=
    reports_iff.mpr rfl
  constructor
  case plan =>
    intro p hp
    rw [← edges_sideShares hp side, List.map_map]
    rfl
  case pools =>
    intro pools hpools
    rw [← edges_pools hpools side, List.map_map]
    rfl
  case log => exact hlog.named_prefix side
  case log_of_fit => exact fun r hr => hlog.named_of_fit hr side

/-- **Edges are listed as sorting lists their texts.** The text of an id is its sixteen lower-case
hexadecimal digits, which are read back as the id; texts are ordered as the ids, and no two ids have
the same. So if the texts of the counted ids of a side are sorted, in whatever order they were, they
are in the order in which the plan, the pools and the log list the edges. -/
theorem edges_listed_as_texts_sort :
    (∀ id : EdgeId, id.hex.toList.length = 16 ∧ (∀ c ∈ id.hex.toList, c ∈ Text.Hex.lowerDigits) ∧
      Text.Hex.number id.hex.toList = id.raw.toNat) ∧
    (∀ a b : EdgeId, a.hex < b.hex ↔ a < b) ∧
    Function.Injective EdgeId.hex ∧
    ∀ (policy : Gate.Policy) (t : Tuning) (task : Task) (side : Side) (texts : List String),
      texts.Perm ((task.ids side).map EdgeId.hex) →
        task.ListsAs policy t side (texts.mergeSort (· ≤ ·)) := by
  refine ⟨fun id => ⟨id.length_hex, fun c hc => ?_, id.number_hex⟩,
    fun _ _ => EdgeId.hex_lt_hex_iff, EdgeId.hex_injective,
    fun policy t task side texts htexts => ?_⟩
  · rw [EdgeId.toList_hex] at hc
    exact Text.Hex.mem_fixed hc
  · rw [EdgeId.mergeSort_eq (task.ascending_ids side) htexts]
    exact listsAs_ids policy t task side

/-- Nine is listed before ten, and a letter is a higher digit than nine. -/
example : (⟨9⟩ : EdgeId).hex < (⟨10⟩ : EdgeId).hex ∧ (⟨10⟩ : EdgeId).hex = "000000000000000a" ∧
    (⟨0xffffffffffffffff⟩ : EdgeId).hex = "ffffffffffffffff" := by
  decide

end Task

end BufferPlan
