import BufferPlan.Kind.Name
import BufferPlan.Proofs.Documents
import BufferPlan.Proofs.Text.Trim

/-!
# The names of kinds as they may be written

A kind is named by a text that differs from its name in blanks at the ends and in the case of ASCII
letters, and in nothing else. No text names two kinds: some names begin with another one, but none
of them is another one in other letters. A character beyond ASCII is never a letter in another case.
Documents are stricter, so what they take for the name of a kind is a text that names the kind.

* `Text.SameLetter`: two characters are the same but for case; `Kind.Written`: so is a text and the
  name of a kind.
* `Kind.ofName?_eq_some_iff`, `Kind.Written.eq`: the kind whose name the text is, if any.
* **`Kind.names_read_in_any_case`**: what is read as a kind, and what is not.
-/

namespace BufferPlan

open Json (Value)
open Text (Trims isBlank)

/-! ## Letters in either case -/

namespace Text

/-- The characters are the same, or one letter of ASCII in either case. -/
def SameLetter (c d : Char) : Prop :=
  c = d ∨ (c.isUpper = true ∧ d.toNat = c.toNat + 32) ∨ (d.isUpper = true ∧ c.toNat = d.toNat + 32)

variable {c d : Char}

theorem isUpper_iff : c.isUpper = true ↔ 65 ≤ c.toNat ∧ c.toNat ≤ 90 :=
  decide_eq_true_iff.trans (and_congr UInt32.le_iff_toNat_le UInt32.le_iff_toNat_le)

theorem toNat_toLower (c : Char) :
    c.toLower.toNat = if c.isUpper then c.toNat + 32 else c.toNat := by
  by_cases h : c.isUpper = true
  · have hle : c.toNat ≤ 90 := (isUpper_iff.mp h).2
    have hlower : c.toLower.toNat = (c.val + ('a'.val - 'A'.val)).toNat :=
      congrArg Char.toNat (dif_pos (decide_eq_true_iff.mp h))
    have hsum : (c.val + ('a'.val - 'A'.val)).toNat = (c.toNat + 32) % 4294967296 :=
      UInt32.toNat_add _ _
    rw [if_pos h, hlower, hsum, Nat.mod_eq_of_lt (by omega)]
  · have hlower : c.toLower = c := dif_neg (mt decide_eq_true_iff.mpr h)
    rw [if_neg h, hlower]

/-- Characters are folded to the same one if they are the same but for case. -/
theorem toLower_eq_toLower_iff : c.toLower = d.toLower ↔ SameLetter c d := by
  rw [← Char.toNat_inj, toNat_toLower, toNat_toLower, SameLetter, ← Char.toNat_inj]
  simp only [isUpper_iff]
  split <;> split <;> omega

end Text

namespace Kind

/-! ## Texts that are a name in other letters -/

/-- The text is the name of the kind but for the case of letters. -/
def Written (k : Kind) (text : List Char) : Prop :=
  List.Forall₂ Text.SameLetter text k.name.toList

variable {k l : Kind} {text : List Char} {c : Char}

theorem fold_eq_iff : fold k.name.toList = fold text ↔ k.Written text := by
  rw [eq_comm, fold, fold, ← List.forall₂_eq_eq_eq, List.forall₂_map_left_iff,
    List.forall₂_map_right_iff, Written]
  simp only [Text.toLower_eq_toLower_iff]

/-- **No text is the names of two kinds.** -/
theorem Written.eq (hk : k.Written text) (hl : l.Written text) : k = l := by
  have hfold := (fold_eq_iff.mpr hk).trans (fold_eq_iff.mpr hl).symm
  have names_differ : ∀ k ∈ all, ∀ l ∈ all, fold k.name.toList = fold l.name.toList → k = l := by
    decide
  exact names_differ k k.mem_all l l.mem_all hfold

/-- **The kind that is looked for is the one whose name the text is.** -/
theorem ofName?_eq_some_iff : ofName? text = some k ↔ k.Written text := by
  constructor
  · intro h
    have hfold := List.find?_some h
    exact fold_eq_iff.mp (beq_iff_eq.mp hfold)
  · intro hk
    obtain ⟨l, hl⟩ : ∃ l, ofName? text = some l := by
      rw [← Option.isSome_iff_exists, ofName?, List.find?_isSome]
      exact ⟨k, k.mem_all, beq_iff_eq.mpr (fold_eq_iff.mpr hk)⟩
    have hfold := List.find?_some hl
    rw [hl, (fold_eq_iff.mp (beq_iff_eq.mp hfold)).eq hk]

/-- The characters of such a text are letters of ASCII and underscores. -/
theorem Written.range (h : k.Written text) (hc : c ∈ text) : 65 ≤ c.toNat ∧ c.toNat ≤ 122 := by
  have names_fold : (fold k.name.toList).all (fun d => 95 ≤ d.toNat && d.toNat ≤ 122) = true := by
    cases k <;> rfl
  have hmem : c.toLower ∈ fold k.name.toList := by
    rw [fold_eq_iff.mpr h]
    exact List.mem_map_of_mem hc
  obtain ⟨hle, hge⟩ : 95 ≤ c.toLower.toNat ∧ c.toLower.toNat ≤ 122 := by
    simpa using List.all_eq_true.mp names_fold _ hmem
  rw [Text.toNat_toLower] at hle hge
  by_cases hupper : c.isUpper = true
  · have := Text.isUpper_iff.mp hupper
    omega
  · rw [if_neg hupper] at hle hge
    omega

theorem Written.not_blank (h : k.Written text) (hc : c ∈ text) : isBlank c = false := by
  obtain ⟨hle, hge⟩ := h.range hc
  exact Text.isBlank_of_graphic ⟨by omega, by omega⟩

/-! ## Texts that are read -/

theorem parse_eq (s : String) {t : List Char} (ht : Trims s.toList t) :
    parse s = (ofName? t).elim (.error (.unknownKind s)) .ok := by
  rw [parse, Text.trim_eq_iff.mpr ht]
  cases ofName? t with
  | none => rfl
  | some k => rfl

theorem parse_eq_ok_iff {s : String} {t : List Char} (ht : Trims s.toList t) :
    parse s = .ok k ↔ k.Written t := by
  rw [parse_eq s ht, ← ofName?_eq_some_iff]
  cases ofName? t with
  | none => simp
  | some l => simp

theorem parse_eq_error_iff {s : String} {t : List Char} (ht : Trims s.toList t) (e : OptionError) :
    parse s = .error e ↔ (∀ k : Kind, ¬k.Written t) ∧ e = .unknownKind s := by
  simp only [parse_eq s ht, ← ofName?_eq_some_iff]
  cases ofName? t with
  | none => simp [eq_comm]
  | some l => simp

/-- How a text is read of which `t` is left without the blanks at its ends. -/
structure Reads (s : String) (t : List Char) : Prop where
  /-- It is read as a kind just if what is left is the name of the kind but for case. -/
  ok_iff : ∀ k, parse s = .ok k ↔ k.Written t
  /-- There is no other such kind. -/
  unique : ∀ k l : Kind, k.Written t → l.Written t → k = l
  /-- What is left is otherwise no name, and the error holds the text with its blanks. -/
  error_iff : ∀ e, parse s = .error e ↔ (∀ k : Kind, ¬k.Written t) ∧ e = .unknownKind s
  /-- So it is with any character beyond ASCII in what is left. -/
  beyond_ascii : (∃ c ∈ t, 128 ≤ c.toNat) → parse s = .error (.unknownKind s)

theorem reads {s : String} {t : List Char} (ht : Trims s.toList t) : Reads s t where
  ok_iff _ := parse_eq_ok_iff ht
  unique _ _ := Written.eq
  error_iff := parse_eq_error_iff ht
  beyond_ascii := by
    rintro ⟨c, hc, hlarge⟩
    refine (parse_eq_error_iff ht _).mpr ⟨fun k hk => ?_, rfl⟩
    have := (hk.range hc).2
    omega

/-- A name in any case is read with any blanks around it. -/
theorem parse_written (h : k.Written text) {before after : List Char}
    (hbefore : ∀ c ∈ before, isBlank c = true) (hafter : ∀ c ∈ after, isBlank c = true) :
    parse (String.ofList (before ++ (text ++ after))) = .ok k := by
  refine (parse_eq_ok_iff ⟨⟨before, after, String.toList_ofList, hbefore, hafter⟩, ?_, ?_⟩).mpr h
  · exact fun c hc => h.not_blank (List.mem_of_mem_head? hc)
  · exact fun c hc => h.not_blank (List.mem_of_mem_getLast? hc)

/-! ## Names in documents -/

/-- A document names a kind by its name as it is, which is read as the kind. -/
theorem parse_of_ofText? {s : String} (h : ofText? s = some k) : parse s = .ok k := by
  have hname := List.find?_some h
  obtain rfl : k.name = s := beq_iff_eq.mp hname
  have hwritten : k.Written k.name.toList := List.forall₂_same.mpr fun c _ => Or.inl rfl
  have hnone : ∀ c ∈ [], isBlank c = true := List.forall_mem_nil _
  have hread := parse_written hwritten hnone hnone
  rwa [List.nil_append, List.append_nil, String.ofList_toList] at hread

theorem parse_of_readText {j : String} {pieces : List Json.Piece}
    (hj : Value.parse? j = some (.string pieces)) (h : readText ofValue? j = some k) :
    ∃ s, Json.name? pieces = some s ∧ parse s = .ok k := by
  rw [readText, hj, Option.bind_some, ofValue?] at h
  obtain ⟨s, hs, hk⟩ := Option.bind_eq_some_iff.mp h
  exact ⟨s, hs, parse_of_ofText? hk⟩

/-- **Names are read in any case and between any blanks**, and nothing else is read as a kind. What
a document takes as a string for the name of a kind is read as the same kind, but a document does
not take all that is read. -/
theorem names_read_in_any_case :
    (∀ s : String, Trims s.toList (Text.trim s.toList) ∧ ∀ t, Trims s.toList t → Reads s t) ∧
    (∀ (k : Kind) (before text after : List Char), k.Written text →
      (∀ c ∈ before, isBlank c = true) → (∀ c ∈ after, isBlank c = true) →
      parse (String.ofList (before ++ (text ++ after))) = .ok k) ∧
    (∀ (j : String) pieces k, Value.parse? j = some (.string pieces) →
      readText ofValue? j = some k → ∃ s, Json.name? pieces = some s ∧ parse s = .ok k) ∧
    ∃ (j : String) (pieces : List Json.Piece) (s : String) (k : Kind),
      Value.parse? j = some (.string pieces) ∧ Json.name? pieces = some s ∧ parse s = .ok k ∧
        readText ofValue? j = none := by
  refine ⟨fun s => ⟨Text.trim_eq_iff.mp rfl, fun t => reads⟩, ?_, ?_, ?_⟩
  · exact fun k before text after h hbefore hafter => parse_written h hbefore hafter
  · exact fun j pieces k hj h => parse_of_readText hj h
  · refine ⟨"\"blocking\"", Json.pieces "blocking".toList, "blocking", .blocking, ?_, ?_, ?_, ?_⟩
    · rfl
    · decide
    · decide
    · decide

/-- A name that begins another one is not taken for it, nor a long s for an S. -/
example : parse "\u2003Pipelined_Bounded\n" = .ok .pipelinedBounded ∧
    parse "pipelined_" = .error (.unknownKind "pipelined_") ∧
    parse "BLOCKING_PER\u017fISTENT" = .error (.unknownKind "BLOCKING_PER\u017fISTENT") := by
  decide

end Kind

end BufferPlan
