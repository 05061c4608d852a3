import BufferPlan.Proofs.Documents

/-!
# Records in any layout

A record is read from an object or from an array, and much of how it is written makes no difference:
the order of the members, members of other names whatever their values are, the blanks, the spelling
of the strings, and whether the fields have names at all. What matters is what the members say of
each field. A `Rule` tells how one field is written, what it is if it is left out, and what it says
of the value of the record.

* `Rule.said?`: what the members of an object say of a field. It is what the one of its name is read
  as and the default if there is none; a field that is written twice says nothing.
* `Follows`: the fields make up a value exactly as the rules tell. `Follows.bind` adds a field that
  is read before the others.
* `AnyLayout`: what a reader must do to read a record in any layout; `Follows.anyLayout`: it does if
  its fields follow the rules.
* **`records_read_in_any_layout`**: bounds, tuning values, the two sides of a task and tasks.
-/

namespace BufferPlan

open Json (Value Fields field?)

/-- How one field of a record is read and what it says of the value. -/
structure Rule (α : Type) where
  name : String
  {β : Type}
  read : Value → Option β
  /-- What the field is if it is left out. -/
  missing : Option β
  /-- The value has this in the field. -/
  Holds : β → α → Prop

variable {α : Type}

namespace Rule

/-- A field that says what a part of the value is. -/
def part (name : String) {β : Type} (read : Value → Option β) (missing : Option β)
    (get : α → β) : Rule α := ⟨name, read, missing, fun b a => get a = b⟩

/-- What the members of the field's name are read as. -/
def readings (r : Rule α) (named : Fields) : List (Option r.β) :=
  (named.filter fun m => m.1 == r.name).map fun m => r.read m.2

/-- What the members say of the field. -/
def said? (r : Rule α) (named : Fields) : Option r.β :=
  match r.readings named with
  | [] => r.missing
  | [b?] => b?
  | _ => none

variable {r : Rule α} {named named' : Fields}

theorem length_readings (r : Rule α) (named : Fields) :
    (r.readings named).length = (named.map Prod.fst).count r.name := by
  rw [readings, List.length_map, List.count, List.countP_map, List.countP_eq_length_filter]
  rfl

/-- A field that is written twice says nothing. -/
theorem said?_of_repeated (h : 2 ≤ (named.map Prod.fst).count r.name) : r.said? named = none := by
  rw [← length_readings] at h
  unfold said?
  generalize r.readings named = l at h
  match l, h with
  | _ :: _ :: _, _ => rfl

/-- The order of the members of a field's name makes no difference. -/
theorem said?_of_perm (h : (r.readings named).Perm (r.readings named')) :
    r.said? named = r.said? named' := by
  unfold said?
  generalize r.readings named = l at h
  generalize r.readings named' = l' at h
  match l, l', h.length_eq with
  | [], [], _ => rfl
  | [b], [c], _ => rw [List.singleton_perm_singleton.mp h]
  | _ :: _ :: _, _ :: _ :: _, _ => rfl

/-- Members of other names say nothing of the field. -/
theorem readings_known {names : List String} (hr : r.name ∈ names) (named : Fields) :
    r.readings (Value.known names named) = r.readings named := by
  rw [readings, Value.known, List.filter_filter, readings]
  congr 1
  refine List.filter_congr fun m _ => ?_
  by_cases hm : m.1 = r.name
  · simp [hm, hr]
  · simp [hm]

/-- What a list of fields has under the field's name. -/
def value? (r : Rule α) (fields : Fields) : Option r.β := field? fields r.name r.read r.missing

/-- Members without a repeated name say what is found under the name. -/
theorem said?_eq_value? {fields : Fields} (h : (fields.map Prod.fst).Nodup) :
    r.said? fields = r.value? fields := by
  induction fields with
  | nil => rfl
  | cons m fields ih =>
    obtain ⟨hm, hfields⟩ := List.nodup_cons.mp h
    by_cases hname : m.1 = r.name
    · -- the other members have other names
      have hnone : r.readings fields = [] := by
        rw [← List.length_eq_zero_iff, length_readings, ← hname]
        exact List.count_eq_zero_of_not_mem hm
      have hreadings : r.readings (m :: fields) = r.read m.2 :: r.readings fields := by
        simp [readings, hname]
      rw [said?, hreadings, hnone, value?, ← hname]
      exact Json.field?_cons_self.symm
    · have hreadings : r.readings (m :: fields) = r.readings fields := by
        simp [readings, hname]
      rw [said?, hreadings, ← said?, ih hfields, value?, value?]
      exact (Json.field?_cons_of_ne (Ne.symm hname)).symm

end Rule

/-! ## Layouts -/

/-- The fields make up the value that the rules tell, among the values with a property: those that
have what was read already. -/
structure Follows (P : α → Prop) (rules : List (Rule α)) (make : Fields → Option α) : Prop where
  eq_some_iff : ∀ fields a,
    make fields = some a ↔ P a ∧ ∀ r ∈ rules, ∃ b, r.value? fields = some b ∧ r.Holds b a
  exists_of_isSome : ∀ fields, (∀ r ∈ rules, (r.value? fields).isSome = true) →
    ∃ a, make fields = some a

namespace Follows

variable {P : α → Prop}

/-- When all is read, one value has it. -/
theorem pure {a : α} (h : ∀ a', P a' ↔ a' = a) : Follows P [] fun _ => some a where
  eq_some_iff fields a' := by simp [h, eq_comm]
  exists_of_isSome fields _ := ⟨a, rfl⟩

/-- One field is read, and then the others. -/
theorem bind {r : Rule α} {rules : List (Rule α)} {make : r.β → Fields → Option α}
    (h : ∀ b, Follows (fun a => P a ∧ r.Holds b a) rules (make b)) :
    Follows P (r :: rules) fun fields => r.value? fields >>= fun b => make b fields where
  eq_some_iff fields a := by
    rw [Option.bind_eq_bind, Option.bind_eq_some_iff, List.forall_mem_cons]
    constructor
    · rintro ⟨b, hb, hmake⟩
      obtain ⟨⟨hP, hholds⟩, hrules⟩ := ((h b).eq_some_iff fields a).mp hmake
      exact ⟨hP, ⟨b, hb, hholds⟩, hrules⟩
    · rintro ⟨hP, ⟨b, hb, hholds⟩, hrules⟩
      exact ⟨b, hb, ((h b).eq_some_iff fields a).mpr ⟨⟨hP, hholds⟩, hrules⟩⟩
  exists_of_isSome fields hsome := by
    obtain ⟨hr, hrules⟩ := List.forall_mem_cons.mp hsome
    obtain ⟨b, hb⟩ := Option.isSome_iff_exists.mp hr
    obtain ⟨a, ha⟩ := (h b).exists_of_isSome fields hrules
    exact ⟨a, by rw [hb, Option.bind_eq_bind, Option.bind_some, ha]⟩

end Follows

/-- The reader reads a record with fields of these rules in any layout. As an array it has at least
`least` items. -/
structure AnyLayout (rules : List (Rule α)) (least : Nat) (read : Value → Option α) : Prop where
  /-- The blanks of a text and the spelling of its strings make no difference. -/
  text : ∀ v s, v.WrittenAs s → readText read s = read v
  /-- An object is read if its members say an acceptable value of every field, whatever other
  members stand among them. -/
  accepted : ∀ v named, v.Lists named → (∀ r ∈ rules, (r.said? named).isSome = true) →
    ∃ a, read v = some a
  /-- It is read as the value that has in every field what the members say of it. -/
  eq_some_iff : ∀ v named, v.Lists named → ∀ a,
    read v = some a ↔ ∀ r ∈ rules, ∃ b, r.said? named = some b ∧ r.Holds b a
  /-- It is refused if a field is written twice, wherever and with whatever values. -/
  repeated : ∀ v named, v.Lists named →
    ∀ r ∈ rules, 2 ≤ (named.map Prod.fst).count r.name → read v = none
  /-- Objects are read as the same if they have the same fields in some order, whatever members of
  other names they have. -/
  rearranged : ∀ v v' named named', v.Lists named → v'.Lists named' →
    (Value.known (rules.map Rule.name) named).Perm (Value.known (rules.map Rule.name) named') →
    read v = read v'
  /-- Objects are read as the same if their fields are, however the values are laid out. -/
  alike : ∀ v v' named named', v.Lists named → v'.Lists named' →
    (∀ r ∈ rules, r.said? named = r.said? named') → read v = read v'
  /-- An array of the first fields is read as an object with them. -/
  array : ∀ items v, least ≤ items.length → items.length ≤ rules.length →
    v.Lists ((rules.map Rule.name).zip items) → read (.array items) = read v
  /-- Another array is refused. -/
  refused : ∀ items : List Value, items.length < least ∨ rules.length < items.length →
    read (.array items) = none

section

variable {rules : List (Rule α)} {make : Fields → Option α} {least : Nat} {v : Value}
  {named : Fields}

/-- No field is written twice if the members say something of every field. -/
theorem nodup_of_said? (h : ∀ r ∈ rules, (r.said? named).isSome = true) :
    ((Value.known (rules.map Rule.name) named).map Prod.fst).Nodup := by
  refine Value.nodup_known_iff.mpr fun n hn => ?_
  obtain ⟨r, hr, rfl⟩ := List.mem_map.mp hn
  by_contra hcount
  have hsaid := h r hr
  rw [Rule.said?_of_repeated (by omega)] at hsaid
  exact Bool.false_ne_true hsaid

/-- What the members say of a field is found under its name, if no field is written twice. -/
theorem Rule.value?_known (hnodup : ((Value.known (rules.map name) named).map Prod.fst).Nodup)
    {r : Rule α} (hr : r ∈ rules) :
    r.value? (Value.known (rules.map name) named) = r.said? named := by
  rw [← said?_eq_value? hnodup, said?, readings_known (List.mem_map_of_mem hr), ← said?]

namespace Follows

/-- **An object is read as the value that has in every field what its members say of it.** -/
theorem bind_fields?_eq_some_iff (h : Follows (fun _ => True) rules make) (hv : v.Lists named)
    (a : α) :
    (v.fields? (rules.map Rule.name) least).bind make = some a ↔
      ∀ r ∈ rules, ∃ b, r.said? named = some b ∧ r.Holds b a := by
  rw [Value.fields?_of_lists hv]
  by_cases hnodup : ((Value.known (rules.map Rule.name) named).map Prod.fst).Nodup
  · rw [if_pos hnodup, Option.bind_some, h.eq_some_iff, true_and]
    exact forall₂_congr fun r hr => by rw [Rule.value?_known hnodup hr]
  · -- a field that is written twice says nothing
    rw [if_neg hnodup]
    refine iff_of_false (by simp) fun hall => hnodup (nodup_of_said? fun r hr => ?_)
    obtain ⟨b, hb, -⟩ := hall r hr
    exact Option.isSome_iff_exists.mpr ⟨b, hb⟩

/-- An object is read if its members say an acceptable value of every field. -/
theorem exists_bind_fields? (h : Follows (fun _ => True) rules make) (hv : v.Lists named)
    (hsaid : ∀ r ∈ rules, (r.said? named).isSome = true) :
    ∃ a, (v.fields? (rules.map Rule.name) least).bind make = some a := by
  have hnodup := nodup_of_said? hsaid
  rw [Value.fields?_of_lists hv, if_pos hnodup, Option.bind_some]
  refine h.exists_of_isSome _ fun r hr => ?_
  rw [Rule.value?_known hnodup hr]
  exact hsaid r hr

/-- Objects whose members say the same are read as the same. -/
theorem bind_fields?_congr (h : Follows (fun _ => True) rules make) (hv : v.Lists named)
    {v' : Value} {named' : Fields} (hv' : v'.Lists named')
    (hsaid : ∀ r ∈ rules, r.said? named = r.said? named') :
    (v.fields? (rules.map Rule.name) least).bind make =
      (v'.fields? (rules.map Rule.name) least).bind make := by
  ext a
  rw [h.bind_fields?_eq_some_iff hv, h.bind_fields?_eq_some_iff hv']
  exact forall₂_congr fun r hr => by rw [hsaid r hr]

/-- **A record whose fields follow their rules is read in any layout**, if no two rules have the
same name. -/
theorem anyLayout (h : Follows (fun _ => True) rules make) (hnodup : (rules.map Rule.name).Nodup) :
    AnyLayout rules least fun v => (v.fields? (rules.map Rule.name) least).bind make := by
  constructor
  case text =>
    intro v s hs
    rw [readText, Value.parse?_of_writtenAs hs, Option.bind_some]
  case accepted => exact fun v named hv => h.exists_bind_fields? hv
  case eq_some_iff => exact fun v named hv => h.bind_fields?_eq_some_iff hv
  case repeated =>
    intro v named hv r hr hcount
    refine Option.eq_none_iff_forall_ne_some.mpr fun a ha => ?_
    obtain ⟨b, hb, -⟩ := (h.bind_fields?_eq_some_iff hv a).mp ha r hr
    rw [Rule.said?_of_repeated hcount] at hb
    cases hb
  case rearranged =>
    intro v v' named named' hv hv' hperm
    refine h.bind_fields?_congr hv hv' fun r hr => Rule.said?_of_perm ?_
    rw [← Rule.readings_known (List.mem_map_of_mem hr) named,
      ← Rule.readings_known (List.mem_map_of_mem hr) named']
    exact (hperm.filter _).map _
  case alike => exact fun v v' named named' hv hv' => h.bind_fields?_congr hv hv'
  case array =>
    intro items v hleast hmost hv
    rw [← List.length_map Rule.name] at hmost
    rw [Value.fields?_array hnodup hleast hmost hv]
  case refused =>
    intro items hlength
    have hfields : (Value.array items).fields? (rules.map Rule.name) least = none := by
      refine if_neg fun hle => ?_
      rw [List.length_map] at hle
      omega
    rw [hfields, Option.bind_none]

end Follows

end

/-! ## The records of the library -/

namespace Bounds

theorem floor_of (lo : UInt64) (hi? : Option UInt64) : (of lo hi?).floor = lo := by
  cases hi? <;> rfl

/-- The floor must be written, and a ceiling that is missing or null is none. The bounds are made of
the two, so that a ceiling below the floor is lifted. -/
def rules : List (Rule Bounds) :=
  [.part "min" Value.word64? none floor,
    ⟨"max", Value.orNull? Value.word64?, some none, fun hi? b => b = of b.floor hi?⟩]

theorem anyLayout : AnyLayout rules 2 ofValue? := by
  refine Follows.anyLayout (.bind fun (lo : UInt64) => .bind fun (hi? : Option UInt64) =>
    .pure fun b => ⟨?_, ?_⟩) (by decide)
  · rintro ⟨⟨-, rfl⟩, hb⟩
    exact hb
  · rintro rfl
    exact ⟨⟨trivial, floor_of lo hi?⟩, congrArg (of · hi?) (floor_of lo hi?).symm⟩

end Bounds

namespace Tuning

/-- A field that is missing has its default, and a cap that is null is none. -/
def rules : List (Rule Tuning) :=
  [.part "buffers-per-channel" Value.word32? (some default.buffersPerChannel) buffersPerChannel,
    .part "floating-buffers-per-gate" Value.word32? (some default.floatingPerGate) floatingPerGate,
    .part "max-required-buffers-per-gate" (Value.orNull? Value.word32?) (some default.gateCap)
      gateCap,
    .part "sort-shuffle-min-parallelism" Value.word32? (some default.sortFanOut) sortFanOut,
    .part "sort-shuffle-min-buffers" Value.word32? (some default.sortFloor) sortFloor]

theorem anyLayout : AnyLayout rules 0 ofValue? := by
  refine Follows.anyLayout (.bind fun (_ : UInt32) => .bind fun (_ : UInt32) =>
    .bind fun (_ : Option UInt32) => .bind fun (_ : UInt32) => .bind fun (_ : UInt32) =>
    .pure fun t => ?_) (by decide)
  cases t
  simp [Rule.part, and_assoc]

end Tuning

namespace Inputs

/-- A map that is missing is empty. -/
def rules : List (Rule Inputs) :=
  [.part "channel_counts" EdgeMap.counts? (some ∅) channels,
    .part "reuse_counts" EdgeMap.counts? (some ∅) reuse,
    .part "partition_kinds" EdgeMap.kinds? (some ∅) kinds]

theorem anyLayout : AnyLayout rules 0 ofValue? := by
  refine Follows.anyLayout (.bind fun (_ : EdgeMap UInt32) => .bind fun (_ : EdgeMap UInt32) =>
    .bind fun (_ : EdgeMap Kind) => .pure fun s => ?_) (by decide)
  cases s
  simp [Rule.part, and_assoc]

end Inputs

namespace Outputs

/-- A map that is missing is empty. -/
def rules : List (Rule Outputs) :=
  [.part "subpartition_counts" EdgeMap.counts? (some ∅) subpartitions,
    .part "partition_kinds" EdgeMap.kinds? (some ∅) kinds]

theorem anyLayout : AnyLayout rules 0 ofValue? := by
  refine Follows.anyLayout (.bind fun (_ : EdgeMap UInt32) => .bind fun (_ : EdgeMap Kind) =>
    .pure fun s => ?_) (by decide)
  cases s
  simp [Rule.part]

end Outputs

namespace Task

/-- A side that is missing has no edges. Each side is a record itself. -/
def rules : List (Rule Task) :=
  [.part "inputs" Inputs.ofValue? (some {}) inputs,
    .part "outputs" Outputs.ofValue? (some {}) outputs]

theorem anyLayout : AnyLayout rules 0 ofValue? := by
  refine Follows.anyLayout (.bind fun (_ : Inputs) => .bind fun (_ : Outputs) =>
    .pure fun t => ?_) (by decide)
  cases t
  simp [Rule.part]

end Task

/-- **The records of the library are read in any layout.** -/
theorem records_read_in_any_layout :
    AnyLayout Bounds.rules 2 Bounds.ofValue? ∧
    AnyLayout Tuning.rules 0 Tuning.ofValue? ∧
    AnyLayout Inputs.rules 0 Inputs.ofValue? ∧
    AnyLayout Outputs.rules 0 Outputs.ofValue? ∧
    AnyLayout Task.rules 0 Task.ofValue? :=
  ⟨Bounds.anyLayout, Tuning.anyLayout, Inputs.anyLayout, Outputs.anyLayout, Task.anyLayout⟩

/-- Behind a member that is no field, a name spelled with a unit is that of the ceiling. -/
example : readText Bounds.ofValue?
    "\x7b \"x\": [\x7b\x7d, 1e9],\n \"m\\u0061x\" :7, \"min\":5 \x7d" = some (.between 5 7) := by
  decide

end BufferPlan
