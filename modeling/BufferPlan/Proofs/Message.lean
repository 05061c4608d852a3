import BufferPlan.OptionError
import BufferPlan.PlanError
import BufferPlan.Proofs.Text.Quoted
import Mathlib.Logic.Function.Basic

/-!
# Messages that tell errors apart

A message stands in for the error it reports: no other error has the same one. The kinds of error
begin with different letters, and inside one kind the fields are found again by where the words
around them stand. An id has a fixed width, so it ends where its width does. A key is written as it
is and may hold the very words that follow it; what follows it is then found from the end, the
quoted value behind its last free blank and the two counts behind the last two blanks.

* **`PlanError.message_injective`**, **`OptionError.message_injective`**: no two errors have one
  message.
* **`message_determines_error`**: so the error can be read back from its message.
-/

namespace BufferPlan

/-! ## Tasks that cannot be planned -/

theorem EdgeFault.message_injective : Function.Injective EdgeFault.message := by
  intro f g h
  cases f <;> cases g <;> first | rfl | simp [message] at h

/-- Two ids in front of further text end at the same place. -/
theorem EdgeId.hex_append_inj {a b : EdgeId} {s t : String} (h : a.hex ++ s = b.hex ++ t) :
    a = b ∧ s = t := by
  have hlist : a.hex.toList ++ s.toList = b.hex.toList ++ t.toList := by
    rw [← String.toList_append, h, String.toList_append]
  obtain ⟨hhex, hrest⟩ :=
    List.append_inj hlist (a.length_hex.trans b.length_hex.symm)
  exact ⟨hex_injective (String.toList_inj.mp hhex), String.toList_inj.mp hrest⟩

namespace PlanError

/-- The letter that the message begins with. -/
def initial : PlanError → Char
  | badEdge _ _ => 'I'
  | unbounded _ _ => 'U'

theorem message_badEdge (edge : EdgeId) (fault : EdgeFault) :
    (badEdge edge fault).message =
      "Invalid edge data for " ++ (edge.hex ++ (": " ++ fault.message)) := by
  simp only [← String.append_assoc]
  rfl

theorem message_unbounded (edge? : Option EdgeId) (kind : Kind) :
    (unbounded edge? kind).message =
      "Unbounded announcement" ++
        (message.place edge? ++ (": partition kind " ++ kind.name) ++
          " has no finite buffer ceiling") := by
  simp only [← String.append_assoc]
  rfl

theorem head?_message (e : PlanError) : e.message.toList.head? = some e.initial := by
  cases e with
  | badEdge => rw [message_badEdge, String.toList_append]; rfl
  | unbounded => rw [message_unbounded, String.toList_append]; rfl

/-- Errors of one message are of one kind. -/
theorem initial_eq {e f : PlanError} (h : e.message = f.message) : e.initial = f.initial := by
  have hhead := e.head?_message
  rw [h, f.head?_message] at hhead
  exact (Option.some.inj hhead).symm

/-- A place in front of a colon ends where the colon stands. -/
theorem place_append_inj {a b : Option EdgeId} {s t : String}
    (h : message.place a ++ (": partition kind " ++ s) =
      message.place b ++ (": partition kind " ++ t)) : a = b ∧ s = t := by
  have hhead := congrArg (fun w => w.toList.head?) h
  cases a with
  | none =>
    cases b with
    | none => exact ⟨rfl, by simpa [message.place] using h⟩
    | some b => simp [message.place] at hhead
  | some a =>
    cases b with
    | none => simp [message.place] at hhead
    | some b =>
      rw [message.place, message.place, String.append_assoc, String.append_assoc,
        String.append_right_inj] at h
      obtain ⟨rfl, hrest⟩ := EdgeId.hex_append_inj h
      exact ⟨rfl, (String.append_right_inj _).mp hrest⟩

/-- **No two errors have one message.** -/
theorem message_injective : Function.Injective message := by
  intro e f h
  have hinitial := initial_eq h
  cases e with
  | badEdge a fault =>
    cases f with
    | badEdge b other =>
      rw [message_badEdge, message_badEdge, String.append_right_inj] at h
      obtain ⟨rfl, hrest⟩ := EdgeId.hex_append_inj h
      rw [EdgeFault.message_injective ((String.append_right_inj _).mp hrest)]
    | unbounded => simp [initial] at hinitial
  | unbounded a k =>
    cases f with
    | badEdge => simp [initial] at hinitial
    | unbounded b l =>
      rw [message_unbounded, message_unbounded, String.append_right_inj,
        String.append_left_inj] at h
      obtain ⟨rfl, hname⟩ := place_append_inj h
      rw [Kind.name_injective hname]

end PlanError

/-! ## Options that are refused -/

namespace OptionError

open Text

/-- The letter that the message begins with. -/
def initial : OptionError → Char
  | badValue _ _ => 'I'
  | belowLeast _ _ _ => 'V'
  | unknownKind _ => 'U'

theorem message_badValue (key value : String) :
    (badValue key value).message =
      "Invalid value for " ++ (key ++ ":" ++ " " ++ quoted value) := by
  have hcolon : ": " = ":" ++ " " := rfl
  have hmessage : (badValue key value).message =
      "Invalid value for " ++ key ++ ": " ++ quoted value := rfl
  rw [hmessage, hcolon]
  simp only [String.append_assoc]

theorem message_belowLeast (key : String) (value least : UInt64) :
    (belowLeast key value least).message =
      "Value for " ++ (key ++ " out of range:" ++ " " ++ Decimal.ofWord value ++ " <" ++ " "
        ++ Decimal.ofWord least) := by
  have hrange : " out of range: " = " out of range:" ++ " " := rfl
  have hless : " < " = " <" ++ " " := rfl
  have hmessage : (belowLeast key value least).message =
      "Value for " ++ key ++ " out of range: " ++ Decimal.ofWord value ++ " < "
        ++ Decimal.ofWord least := rfl
  rw [hmessage, hrange, hless]
  simp only [String.append_assoc]

theorem message_unknownKind (text : String) :
    (unknownKind text).message = "Unknown partition kind: " ++ quoted text := rfl

theorem head?_message (e : OptionError) : e.message.toList.head? = some e.initial := by
  cases e with
  | badValue => rw [message_badValue, String.toList_append]; rfl
  | belowLeast => rw [message_belowLeast, String.toList_append]; rfl
  | unknownKind => rw [message_unknownKind, String.toList_append]; rfl

/-- Errors of one message are of one kind. -/
theorem initial_eq {e f : OptionError} (h : e.message = f.message) : e.initial = f.initial := by
  have hhead := e.head?_message
  rw [h, f.head?_message] at hhead
  exact (Option.some.inj hhead).symm

theorem ofWord_injective : Function.Injective Decimal.ofWord := by
  intro m n h
  have hdigits := String.ofList_injective h
  rw [← UInt64.toNat_inj, ← Decimal.value_toDigits m.toNat, hdigits, Decimal.value_toDigits]

theorem quoted_injective : Function.Injective quoted := by
  intro s t h
  exact String.toList_inj.mp (Quoted.encode_injective (String.ofList_injective h))

/-- A decimal holds no blank. -/
theorem not_mem_ofWord (n : UInt64) : ' ' ∉ (Decimal.ofWord n).toList := by
  rw [Decimal.ofWord, String.toList_ofList]
  intro h
  exact absurd (Nat.isDigit_of_mem_toDigits (by decide) (by decide) h) (by decide)

/-- The quoted text at the end is found again, whatever stands in front of it. -/
theorem append_quoted_inj {s t v w : String}
    (h : s ++ " " ++ quoted v = t ++ " " ++ quoted w) : s = t ∧ v = w := by
  have hlist : s.toList ++ ' ' :: Quoted.encode v.toList =
      t.toList ++ ' ' :: Quoted.encode w.toList := by
    simpa [quoted] using congrArg String.toList h
  obtain ⟨hst, hvw⟩ := Quoted.append_encode_inj hlist
  exact ⟨String.toList_inj.mp hst, String.toList_inj.mp hvw⟩

/-- The count at the end is found again, whatever stands in front of it. -/
theorem append_ofWord_inj {s t : String} {m n : UInt64}
    (h : s ++ " " ++ Decimal.ofWord m = t ++ " " ++ Decimal.ofWord n) : s = t ∧ m = n := by
  have hlist : s.toList ++ ' ' :: (Decimal.ofWord m).toList =
      t.toList ++ ' ' :: (Decimal.ofWord n).toList := by
    simpa using congrArg String.toList h
  obtain ⟨hst, hmn⟩ :=
    Quoted.append_cons_inj_last (not_mem_ofWord m) (not_mem_ofWord n) hlist
  exact ⟨String.toList_inj.mp hst, ofWord_injective (String.toList_inj.mp hmn)⟩

/-- **No two errors have one message.** -/
theorem message_injective : Function.Injective message := by
  intro e f h
  have hinitial := initial_eq h
  cases e with
  | badValue key value =>
    cases f with
    | badValue key' value' =>
      rw [message_badValue, message_badValue, String.append_right_inj] at h
      obtain ⟨hkey, rfl⟩ := append_quoted_inj h
      rw [(String.append_left_inj _).mp hkey]
    | belowLeast | unknownKind => simp [initial] at hinitial
  | belowLeast key value least =>
    cases f with
    | belowLeast key' value' least' =>
      rw [message_belowLeast, message_belowLeast, String.append_right_inj] at h
      obtain ⟨hvalue, rfl⟩ := append_ofWord_inj h
      obtain ⟨hkey, rfl⟩ := append_ofWord_inj ((String.append_left_inj _).mp hvalue)
      rw [(String.append_left_inj _).mp hkey]
    | badValue | unknownKind => simp [initial] at hinitial
  | unknownKind text =>
    cases f with
    | unknownKind text' =>
      rw [message_unknownKind, message_unknownKind, String.append_right_inj] at h
      rw [quoted_injective h]
    | badValue | belowLeast => simp [initial] at hinitial

end OptionError

/-- **A message determines the error it reports**, whatever the ids, keys, values and counts in it:
different errors have different messages, and the error is read back from its own one. -/
theorem message_determines_error :
    (∀ e f : PlanError, e ≠ f → e.message ≠ f.message) ∧
      (∀ e f : OptionError, e ≠ f → e.message ≠ f.message) ∧
      (∃ read, Function.IsPartialInv PlanError.message read) ∧
      ∃ read, Function.IsPartialInv OptionError.message read :=
  ⟨fun _ _ hne h => hne (PlanError.message_injective h),
    fun _ _ hne h => hne (OptionError.message_injective h),
    ⟨_, PlanError.message_injective.isPartialInv⟩,
    ⟨_, OptionError.message_injective.isPartialInv⟩⟩

end BufferPlan
