import BufferPlan.Document
import BufferPlan.Proofs.Json.Record
import BufferPlan.Proofs.Maps

/-!
# Documents read back

Every value that is kept in a document is read back from its text, whatever the ids and the counts
in it, the sizes of its maps and the ids they have in common. A reader takes more than what is
written, so a text is not always the one that the value read from it is kept as; but that one is
read as the same value, and does not change any more.

* `Lawful`: a reader takes back what a writer makes of a value. It is had for a record if its fields
  make up the value (`lawful_record`), and for a map if it is had for its values (`EdgeMap.lawful`).
* `Lawful.faithful`: what is lawful is `Faithful`, that is, kept in texts.
* **`documents_faithful`**: ids, kinds, bounds, tuning values, the two sides of a task and tasks.
-/

namespace BufferPlan

open Json (Value Fields)

variable {α : Type} {S : Set α} {write : α → Value} {read : Value → Option α}

/-! ## Texts -/

/-- The text that a value is kept as. -/
def writeText (write : α → Value) (a : α) : String := (write a).compact

/-- The value that a text is read as. -/
def readText (read : Value → Option α) (s : String) : Option α := (Value.parse? s).bind read

/-- Texts keep the values of a set. -/
structure Faithful (S : Set α) (write : α → Value) (read : Value → Option α) : Prop where
  /-- What is written is read back. -/
  reread : ∀ a ∈ S, readText read (writeText write a) = some a
  /-- Different values have different texts. -/
  injective : ∀ a ∈ S, ∀ b ∈ S, writeText write a = writeText write b → a = b
  /-- Whatever text a value was read from: its own text is read as it, and what is read from that is
  written as the same text again. -/
  settles : ∀ s a, readText read s = some a →
    readText read (writeText write a) = some a ∧
      (readText read (writeText write a)).map (writeText write) = some (writeText write a)

/-- A reader takes back what a writer makes of a value of a set, and gives no value outside it. -/
structure Lawful (S : Set α) (write : α → Value) (read : Value → Option α) : Prop where
  legible : ∀ a, (write a).Legible
  read_write : ∀ a ∈ S, read (write a) = some a
  mem_of_read : ∀ v a, read v = some a → a ∈ S

/-- **What is lawful is kept in texts.** -/
theorem Lawful.faithful (h : Lawful S write read) : Faithful S write read := by
  have reread : ∀ a ∈ S, readText read (writeText write a) = some a := by
    intro a ha
    rw [readText, writeText, Value.parse?_compact (h.legible a), Option.bind_some,
      h.read_write a ha]
  refine ⟨reread, fun a ha b hb heq => ?_, fun s a hs => ?_⟩
  · have hread := reread a ha
    rw [heq, reread b hb] at hread
    exact (Option.some.inj hread).symm
  · obtain ⟨v, -, hv⟩ := Option.bind_eq_some_iff.mp hs
    have hread := reread a (h.mem_of_read v a hv)
    exact ⟨hread, by rw [hread, Option.map_some]⟩

/-- Where every value is read back, there is no value outside. -/
theorem lawful_univ (legible : ∀ a, (write a).Legible) (read_write : ∀ a, read (write a) = some a) :
    Lawful Set.univ write read :=
  ⟨legible, fun a _ => read_write a, fun _ a _ => Set.mem_univ a⟩

/-- **A record is taken back if its fields make up the value.** The names of the fields are the same
for all values, and no two fields have the same. -/
theorem lawful_record {names : List String} {least : Nat} {members : α → List (String × Value)}
    {make : Fields → Option α} (hnames : ∀ a, (members a).map Prod.fst = names)
    (hnodup : names.Nodup) (hplain : ∀ n ∈ names, Json.Plain n.toList)
    (legible : ∀ a, ∀ m ∈ members a, m.2.Legible)
    (make_members : ∀ a ∈ S, make (members a) = some a)
    (mem_of_make : ∀ fields a, make fields = some a → a ∈ S) :
    Lawful S (fun a => .record (members a)) fun v => (v.fields? names least).bind make where
  legible a := Value.legible_record names (hnames a) hplain (legible a)
  read_write a ha := by
    rw [Value.fields?_record names (hnames a) hnodup, Option.bind_some, make_members a ha]
  mem_of_read v a h := by
    obtain ⟨fields, -, hmake⟩ := Option.bind_eq_some_iff.mp h
    exact mem_of_make fields a hmake

/-! ## Ids and kinds -/

namespace EdgeId

theorem lawful : Lawful Set.univ toValue ofValue? := by
  refine lawful_univ (fun id => Value.legible_ofWord id.raw) fun id => ?_
  rw [ofValue?, toValue, Value.word64?_ofWord, Option.map_some]

theorem ofKey?_toKey (id : EdgeId) : ofKey? id.toKey = some id := by
  rw [ofKey?, toKey, Json.plain?_pieces, Option.bind_some, Text.Decimal.canonical?_toDigits,
    Option.bind_some, Text.Decimal.word64?_toNat, Option.map_some]

theorem legible_toKey (id : EdgeId) : ∀ p ∈ id.toKey, p.Legible := by
  refine Json.legible_pieces fun c hc => ?_
  have hdigit := Nat.isDigit_of_mem_toDigits (by decide) (by decide) hc
  rw [Char.isDigit_iff_toNat] at hdigit
  exact le_trans (by decide) hdigit.1

end EdgeId

theorem Kind.lawful : Lawful Set.univ Kind.toValue Kind.ofValue? := by
  refine lawful_univ (fun k => Value.legible_ofText (by cases k <;> decide)) fun k => ?_
  have hread : Kind.ofText? k.name = some k := by cases k <;> decide
  rw [Kind.toValue, Value.ofText, Kind.ofValue?, Json.name?_pieces, Option.bind_some, hread]

/-! ## Maps -/

namespace EdgeMap

/-- **A map is taken back if its values are.** -/
theorem lawful (h : Lawful Set.univ write read) :
    Lawful Set.univ (toValue write) (ofValue? read) := by
  refine lawful_univ (fun m => Value.legible_object fun e he => ?_) fun m => ?_
  · obtain ⟨⟨id, a⟩, -, rfl⟩ := List.mem_map.mp he
    exact ⟨id.legible_toKey, h.legible a⟩
  · rw [toValue, ofValue?, Json.mapM_map_eq_some]
    · exact congrArg some m.ofList_entries
    · rintro ⟨id, a⟩ -
      simp only [EdgeId.ofKey?_toKey, h.read_write a (Set.mem_univ a)]
      rfl

theorem lawful_counts : Lawful Set.univ ofCounts counts? :=
  lawful (lawful_univ (fun n => Value.legible_ofNat n.toNat) Value.word32?_ofNat)

theorem lawful_kinds : Lawful Set.univ ofKinds kinds? := lawful Kind.lawful

end EdgeMap

/-! ## Bounds and tuning values -/

namespace Bounds

/-- The bounds that can be made. -/
def made : Set Bounds := {b | (∃ lo hi, b = between lo hi) ∨ ∃ lo, b = atLeast lo}

theorem of_mem_made (lo : UInt64) (hi? : Option UInt64) : of lo hi? ∈ made := by
  cases hi? with
  | none => exact Or.inr ⟨lo, rfl⟩
  | some hi => exact Or.inl ⟨lo, hi, rfl⟩

/-- A ceiling that was lifted is not lifted again. -/
theorem of_eq_self {b : Bounds} (hb : b ∈ made) : of b.floor b.ceiling? = b := by
  rcases hb with ⟨lo, hi, rfl⟩ | ⟨lo, rfl⟩
  · have hle : lo ≤ max hi lo := ordered_between lo hi _ rfl
    have hmax : max (max hi lo) lo = max hi lo := by
      rw [show max (max hi lo) lo = if max hi lo ≤ lo then lo else max hi lo from rfl]
      split
      · exact UInt64.le_antisymm hle ‹_›
      · rfl
    exact congrArg (fun c => (⟨lo, some c⟩ : Bounds)) hmax
  · rfl

theorem lawful : Lawful made toValue ofValue? := by
  refine lawful_record (fun _ => rfl) (by decide) (by decide) (by simp) (fun b hb => ?_)
    fun fields b h => ?_
  · simp [of_eq_self hb]
  · obtain ⟨floor, -, h⟩ := Option.bind_eq_some_iff.mp h
    obtain ⟨ceiling?, -, h⟩ := Option.bind_eq_some_iff.mp h
    obtain rfl := Option.some.inj h
    exact of_mem_made floor ceiling?

end Bounds

theorem Tuning.lawful : Lawful Set.univ Tuning.toValue Tuning.ofValue? := by
  refine lawful_record (fun _ => rfl) (by decide) (by decide) (by simp) (fun t _ => ?_)
    fun _ t _ => Set.mem_univ t
  simp

/-! ## Tasks -/

theorem Inputs.lawful : Lawful Set.univ Inputs.toValue Inputs.ofValue? := by
  refine lawful_record (fun _ => rfl) (by decide) (by decide) (fun s => ?_) (fun s _ => ?_)
    fun _ s _ => Set.mem_univ s
  · simp [EdgeMap.lawful_counts.legible, EdgeMap.lawful_kinds.legible]
  · simp [EdgeMap.lawful_counts.read_write, EdgeMap.lawful_kinds.read_write]

theorem Outputs.lawful : Lawful Set.univ Outputs.toValue Outputs.ofValue? := by
  refine lawful_record (fun _ => rfl) (by decide) (by decide) (fun s => ?_) (fun s _ => ?_)
    fun _ s _ => Set.mem_univ s
  · simp [EdgeMap.lawful_counts.legible, EdgeMap.lawful_kinds.legible]
  · simp [EdgeMap.lawful_counts.read_write, EdgeMap.lawful_kinds.read_write]

theorem Task.lawful : Lawful Set.univ Task.toValue Task.ofValue? := by
  refine lawful_record (fun _ => rfl) (by decide) (by decide) (fun t => ?_) (fun t _ => ?_)
    fun _ t _ => Set.mem_univ t
  · simp [Inputs.lawful.legible, Outputs.lawful.legible]
  · simp [Inputs.lawful.read_write, Outputs.lawful.read_write]

/-- **Whatever is kept in a document is read back from its text.** -/
theorem documents_faithful :
    Faithful Set.univ EdgeId.toValue EdgeId.ofValue? ∧
    Faithful Set.univ Kind.toValue Kind.ofValue? ∧
    Faithful Bounds.made Bounds.toValue Bounds.ofValue? ∧
    Faithful Set.univ Tuning.toValue Tuning.ofValue? ∧
    Faithful Set.univ Inputs.toValue Inputs.ofValue? ∧
    Faithful Set.univ Outputs.toValue Outputs.ofValue? ∧
    Faithful Set.univ Task.toValue Task.ofValue? :=
  ⟨EdgeId.lawful.faithful, Kind.lawful.faithful, Bounds.lawful.faithful, Tuning.lawful.faithful,
    Inputs.lawful.faithful, Outputs.lawful.faithful, Task.lawful.faithful⟩

/-- A ceiling below the floor is lifted when it is read, and written as it was lifted. -/
example : (readText Bounds.ofValue? " [5, 3]").map (writeText Bounds.toValue) =
    some "\x7b\"min\":5,\"max\":5\x7d" := by
  decide

end BufferPlan
