import BufferPlan.Proofs.Options
import BufferPlan.Proofs.RecordText

/-!
# Integers in documents

A number is read from a text exactly if the text is the decimal of the number with blanks around
it. There is no other way to write it: no sign, no zero in front, no fraction, no exponent and no
quotes. This holds for ids, which are below 2⁶⁴, and for counts, which are below 2³², and for a
count it holds wherever it stands, in a map of counts or as a tuning value. Null stands for no count
in one place only, the cap.

* `IntegerText`, `NullText`: the texts of a number and of null.
* `ReadsIntegers`: a reader of the numbers below a bound.
* `EdgeMap.CountsSaidBy`, `Tuning.SaidBy`: what the members of a map of counts and the fields of
  tuning values say.
* **`integers_read_exactly`**: ids and counts are read so, by themselves and as parts of documents.
-/

namespace BufferPlan

open Json (Value Alone)
open Text.Decimal (Canonical)

variable {α : Type} {read : Value → Option α} {size m n : Nat} {number : α → Nat} {s : String}

/-! ## Texts of numbers -/

/-- The text is the decimal of the number, with blanks around it. -/
def IntegerText (s : String) (n : Nat) : Prop := ∃ ds, Canonical ds n ∧ Alone ds s

/-- The text is null, with blanks around it. -/
def NullText (s : String) : Prop := Alone ['n', 'u', 'l', 'l'] s

theorem Json.Value.nat?_eq_some_iff {v : Value} :
    v.nat? = some n ↔ ∃ ds, v = .number ds ∧ Canonical ds n := by
  constructor
  · intro h
    cases v with
    | number ds => exact ⟨ds, rfl, Text.Decimal.canonical?_eq_some_iff.mp h⟩
    | _ => cases h
  · rintro ⟨ds, rfl, hds⟩
    exact Text.Decimal.canonical?_eq_some_iff.mpr hds

/-- **A natural number is read from its decimal**, and from no other text. -/
theorem readText_nat?_eq_some_iff : readText Value.nat? s = some n ↔ IntegerText s n := by
  rw [readText_eq_some_iff_writtenAs]
  simp only [Value.nat?_eq_some_iff]
  constructor
  · rintro ⟨_, hv, ds, rfl, hds⟩
    exact ⟨ds, hds, (Value.writtenAs_number_iff.mp hv).2⟩
  · rintro ⟨ds, hds, halone⟩
    have hnumeral : Json.Numeral ds := hds.eq_toDigits ▸ Json.numeral_toDigits n
    exact ⟨.number ds, Value.writtenAs_number_iff.mpr ⟨hnumeral, halone⟩, ds, rfl, hds⟩

namespace IntegerText

/-- A text is the decimal of one number at most. -/
theorem eq (hm : IntegerText s m) (hn : IntegerText s n) : m = n :=
  Option.some.inj ((readText_nat?_eq_some_iff.mpr hm).symm.trans (readText_nat?_eq_some_iff.mpr hn))

/-- Nothing stands in the text but digits and blanks. -/
theorem isDigit_or_blank (h : IntegerText s n) :
    ∀ c ∈ s.toList, c.isDigit = true ∨ c ∈ [' ', '\t', '\n', '\r'] := by
  obtain ⟨ds, hds, before, behind, hs, hbefore, hbehind⟩ := h
  intro c hc
  rw [hs, List.mem_append, List.mem_append] at hc
  rcases hc with hc | hc | hc
  · exact Or.inr (hbefore c hc)
  · exact Or.inl (hds.denotes.digits.2 c hc)
  · exact Or.inr (hbehind c hc)

theorem not_nullText (h : IntegerText s n) : ¬NullText s := by
  rintro ⟨before, behind, hs, -, -⟩
  have hmem : 'n' ∈ s.toList := by simp [hs]
  exact absurd (h.isDigit_or_blank 'n' hmem) (by decide)

end IntegerText

/-! ## Readers of numbers -/

/-- The reader takes the numbers below a bound, each in the one way in which it is written. -/
structure ReadsIntegers (size : Nat) (number : α → Nat) (read : Value → Option α) : Prop where
  /-- What is read has a number, and no two values have the same. -/
  number_injective : Function.Injective number
  /-- A text is read as what has a number if it is the decimal of that number and the number is
  below the bound, and not otherwise. -/
  exists_iff : ∀ s n, (∃ a, readText read s = some a ∧ number a = n) ↔ n < size ∧ IntegerText s n
  /-- Any other text is refused. -/
  refuses : ∀ s, (∀ n < size, ¬IntegerText s n) → readText read s = none
  /-- Such are the texts with a character that is neither a digit nor a blank: a sign, a point, the
  mark of an exponent, a quote, a letter or a bracket. -/
  refuses_strange : ∀ s, (∃ c ∈ s.toList, c.isDigit = false ∧ c ∉ [' ', '\t', '\n', '\r']) →
    readText read s = none
  /-- Such are the decimals of the bound and of all numbers above it, however long they are. -/
  refuses_large : ∀ s n, size ≤ n → IntegerText s n → readText read s = none

theorem readText_eq_some_iff_integerText
    (hread : ∀ v a, read v = some a ↔ v.nat? = some (number a)) {a : α} :
    readText read s = some a ↔ IntegerText s (number a) := by
  rw [← readText_nat?_eq_some_iff, readText_eq_some_iff_writtenAs, readText_eq_some_iff_writtenAs]
  simp only [hread]

/-- **A reader takes the numbers below a bound** if it makes what has a number of that number. -/
theorem readsIntegers_of_nat? (hread : ∀ v a, read v = some a ↔ v.nat? = some (number a))
    (hsize : ∀ n, (∃ a, number a = n) ↔ n < size) (hinj : Function.Injective number) :
    ReadsIntegers size number read := by
  have htext (s : String) (a : α) : readText read s = some a ↔ IntegerText s (number a) :=
    readText_eq_some_iff_integerText hread
  have refuses (s : String) (h : ∀ n < size, ¬IntegerText s n) : readText read s = none := by
    refine Option.eq_none_iff_forall_ne_some.mpr fun a ha => ?_
    exact h (number a) ((hsize _).mp ⟨a, rfl⟩) ((htext s a).mp ha)
  constructor
  case number_injective => exact hinj
  case exists_iff =>
    intro s n
    constructor
    · rintro ⟨a, ha, rfl⟩
      exact ⟨(hsize _).mp ⟨a, rfl⟩, (htext s a).mp ha⟩
    · rintro ⟨hlt, hs⟩
      obtain ⟨a, rfl⟩ := (hsize n).mpr hlt
      exact ⟨a, (htext s a).mpr hs, rfl⟩
  case refuses => exact refuses
  case refuses_strange =>
    rintro s ⟨c, hc, hdigit, hblank⟩
    refine refuses s fun n _ hs => ?_
    rcases hs.isDigit_or_blank c hc with h | h
    · exact Bool.false_ne_true (hdigit.symm.trans h)
    · exact hblank h
  case refuses_large =>
    intro s n hle hs
    refine refuses s fun m hlt hm => ?_
    rw [hm.eq hs] at hlt
    omega

/-! ## Ids and counts -/

theorem Json.Value.word32?_eq_some_iff {v : Value} {w : UInt32} :
    v.word32? = some w ↔ v.nat? = some w.toNat := by
  simp [Value.word32?, Option.bind_eq_some_iff, Text.Decimal.word32?_eq_some_iff]

theorem EdgeId.ofValue?_eq_some_iff {v : Value} {id : EdgeId} :
    EdgeId.ofValue? v = some id ↔ v.nat? = some id.raw.toNat := by
  obtain ⟨raw⟩ := id
  simp [EdgeId.ofValue?, Value.word64?, Option.bind_eq_some_iff, Text.Decimal.word64?_eq_some_iff]

theorem readsIntegers_word32? : ReadsIntegers UInt32.size UInt32.toNat Value.word32? := by
  refine readsIntegers_of_nat? (fun _ _ => Value.word32?_eq_some_iff) (fun n => ?_)
    fun _ _ h => UInt32.toNat_inj.mp h
  constructor
  · rintro ⟨w, rfl⟩
    exact w.toNat_lt
  · exact fun h => ⟨UInt32.ofNatLT n h, UInt32.toNat_ofNatLT⟩

theorem EdgeId.readsIntegers :
    ReadsIntegers UInt64.size (fun id : EdgeId => id.raw.toNat) EdgeId.ofValue? := by
  refine readsIntegers_of_nat? (fun _ _ => EdgeId.ofValue?_eq_some_iff) (fun n => ?_) ?_
  · constructor
    · rintro ⟨id, rfl⟩
      exact id.raw.toNat_lt
    · exact fun h => ⟨⟨UInt64.ofNatLT n h⟩, UInt64.toNat_ofNatLT⟩
  · rintro ⟨x⟩ ⟨y⟩ h
    exact congrArg EdgeId.mk (UInt64.toNat_inj.mp h)

/-! ## Counts in documents -/

theorem readText_word32?_eq_some_iff {w : UInt32} :
    readText Value.word32? s = some w ↔ IntegerText s w.toNat :=
  readText_eq_some_iff_integerText fun _ _ => Value.word32?_eq_some_iff

/-- A count or null: null is no count, and nothing else is none. -/
theorem readText_orNull?_eq_some_iff {n? : Option UInt32} :
    readText (Value.orNull? Value.word32?) s = some n? ↔
      (∃ n, n? = some n ∧ IntegerText s n.toNat) ∨ n? = none ∧ NullText s := by
  have hvalue (v : Value) : Value.orNull? Value.word32? v = some n? ↔
      (∃ n, n? = some n ∧ v.word32? = some n) ∨ n? = none ∧ v = .null := by
    cases v with
    | null => simp [Value.orNull?, Value.word32?, Value.nat?, eq_comm]
    | _ => simp [Value.orNull?, eq_comm, and_comm]
  simp only [readText_eq_some_iff_writtenAs, hvalue, ← readText_word32?_eq_some_iff]
  constructor
  · rintro ⟨v, hv, ⟨n, rfl, hn⟩ | ⟨rfl, rfl⟩⟩
    · exact Or.inl ⟨n, rfl, v, hv, hn⟩
    · exact Or.inr ⟨rfl, Value.writtenAs_null_iff.mp hv⟩
  · rintro (⟨n, rfl, v, hv, hn⟩ | ⟨rfl, hnull⟩)
    · exact ⟨v, hv, Or.inl ⟨n, rfl, hn⟩⟩
    · exact ⟨.null, Value.writtenAs_null_iff.mpr hnull, Or.inr ⟨rfl, rfl⟩⟩

/-- The members of a map of counts say what it is: each name is the decimal of an id, and each text
that of its count. -/
def EdgeMap.CountsSaidBy (members : List (List Char × String)) (m : EdgeMap UInt32) : Prop :=
  ∃ entries, List.Forall₂ (fun w e => Canonical w.1 e.1.raw.toNat ∧ IntegerText w.2 e.2.toNat)
    members entries ∧ ofList entries = m

theorem EdgeMap.counts_readByParts : ReadByParts MapOf CountsSaidBy counts? := by
  have hentry : SaysEntry Value.word32? = fun w e =>
      Canonical w.1 e.1.raw.toNat ∧ IntegerText w.2 e.2.toNat := by
    ext w e
    rw [SaysEntry, readText_word32?_eq_some_iff]
  refine (readByParts Value.word32?).congr fun members m => ?_
  rw [SaidBy, hentry, CountsSaidBy]

namespace Setting

/-- The name of the setting in a record of tuning values. -/
def fieldName : Setting → String
  | buffersPerChannel => "buffers-per-channel"
  | floatingPerGate => "floating-buffers-per-gate"
  | gateCap => "max-required-buffers-per-gate"
  | sortFanOut => "sort-shuffle-min-parallelism"
  | sortFloor => "sort-shuffle-min-buffers"

/-- What the text says of the setting: it is the decimal of its count, or null for a cap that is not
set. -/
def Fits (x : Setting) (n? : Option UInt32) (text : String) : Prop :=
  (∃ n, n? = some n ∧ IntegerText text n.toNat) ∨ x = gateCap ∧ n? = none ∧ NullText text

/-- The rule by which the field of the setting is read. -/
def rule : Setting → Rule Tuning
  | buffersPerChannel => .part buffersPerChannel.fieldName Value.word32?
    (some Tuning.default.buffersPerChannel) Tuning.buffersPerChannel
  | floatingPerGate => .part floatingPerGate.fieldName Value.word32?
    (some Tuning.default.floatingPerGate) Tuning.floatingPerGate
  | gateCap => .part gateCap.fieldName (Value.orNull? Value.word32?) (some Tuning.default.gateCap)
    Tuning.gateCap
  | sortFanOut => .part sortFanOut.fieldName Value.word32? (some Tuning.default.sortFanOut)
    Tuning.sortFanOut
  | sortFloor => .part sortFloor.fieldName Value.word32? (some Tuning.default.sortFloor)
    Tuning.sortFloor

variable {fields : List (String × String)} {t : Tuning}

/-- **A setting** has its default if its field is left out, and what the text says otherwise. -/
theorem saysIn_rule_iff (x : Setting) : x.rule.SaysIn fields t ↔
    Once (t.get? x = Tuning.default.get? x) (x.Fits (t.get? x)) (textsOf x.fieldName fields) := by
  cases x with
  | gateCap =>
    refine Rule.saysIn_part_iff.trans (Once.congr Iff.rfl (fun text => ?_) _)
    rw [readText_orNull?_eq_some_iff]
    simp [Fits, Tuning.get?]
  | _ =>
    refine Rule.saysIn_part_iff.trans (Once.congr ?_ (fun text => ?_) _)
    · simp [Tuning.get?]
    · simp [Fits, Tuning.get?, readText_word32?_eq_some_iff]

end Setting

namespace Tuning

/-- The fields of tuning values say what every setting is. -/
def SaidBy (fields : List (String × String)) (t : Tuning) : Prop :=
  ∀ x : Setting,
    Once (t.get? x = default.get? x) (x.Fits (t.get? x)) (textsOf x.fieldName fields)

theorem readByParts : ReadByParts (RecordOf fieldNames 0) SaidBy ofValue? := by
  refine (AnyLayout.readByParts anyLayout).congr fun fields t => ?_
  have hrules : rules = Setting.all.map Setting.rule := rfl
  rw [SaidByRules, hrules, List.forall_mem_map]
  exact ⟨fun h x => x.saysIn_rule_iff.mp (h x x.mem_all), fun h x _ => x.saysIn_rule_iff.mpr (h x)⟩

/-- Null is taken for the cap only. -/
theorem SaidBy.eq_gateCap {fields : List (String × String)} {t : Tuning} {x : Setting}
    {text : String} (ht : SaidBy fields t) (htext : text ∈ textsOf x.fieldName fields)
    (hnull : NullText text) : x = .gateCap := by
  have hx := ht x
  generalize textsOf x.fieldName fields = texts at hx htext
  match texts, hx with
  | [text'], hx =>
    obtain rfl := List.mem_singleton.mp htext
    rcases hx with ⟨n, -, hn⟩ | ⟨hcap, -⟩
    · exact absurd hnull hn.not_nullText
    · exact hcap

end Tuning

/-- **Integers are read exactly.** An id is read from the decimal of a number below 2⁶⁴ and a count
from one below 2³², with any blanks around it, and from nothing else. So it is with every count of a
map and every tuning value, wherever it stands in a document, and null is taken for the cap only. -/
theorem integers_read_exactly :
    ReadsIntegers UInt64.size (fun id : EdgeId => id.raw.toNat) EdgeId.ofValue? ∧
    ReadsIntegers UInt32.size UInt32.toNat Value.word32? ∧
    ReadByParts MapOf EdgeMap.CountsSaidBy EdgeMap.counts? ∧
    ReadByParts (RecordOf Tuning.fieldNames 0) Tuning.SaidBy Tuning.ofValue? ∧
    (∀ s fields t, RecordOf Tuning.fieldNames 0 fields s → readText Tuning.ofValue? s = some t →
      ∀ x : Setting, (∃ text ∈ textsOf x.fieldName fields, NullText text) → x = .gateCap) ∧
    ReadByParts (RecordOf Inputs.fieldNames 0) (SaidByRules Inputs.rules) Inputs.ofValue? ∧
    ReadByParts (RecordOf Outputs.fieldNames 0) (SaidByRules Outputs.rules) Outputs.ofValue? ∧
    ReadByParts (RecordOf Task.fieldNames 0) (SaidByRules Task.rules) Task.ofValue? := by
  refine ⟨EdgeId.readsIntegers, readsIntegers_word32?, EdgeMap.counts_readByParts,
    Tuning.readByParts, ?_, AnyLayout.readByParts Inputs.anyLayout,
    AnyLayout.readByParts Outputs.anyLayout, AnyLayout.readByParts Task.anyLayout⟩
  rintro s fields t hs ht x ⟨text, htext, hnull⟩
  exact ((Tuning.readByParts.eq_some_iff s fields hs t).mp ht).eq_gateCap htext hnull

/-- The greatest id and the number behind it, and texts that look like numbers. -/
example : readText EdgeId.ofValue? " \r18446744073709551615\n" = some ⟨0xffffffffffffffff⟩ ∧
    ["18446744073709551616", "-0", "1.0", "1e2", "007", "\"7\"", "null", "[7]", ""].all
      fun s => (readText EdgeId.ofValue? s).isNone := by
  decide

end BufferPlan
