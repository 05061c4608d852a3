import BufferPlan.Json.Value
import BufferPlan.Proofs.Json.Scan

/-!
# Reading what was written

A text that writes a value is read back as that value. The machine that reads tokens takes all the
tokens of a value as one, whatever stands around them and behind them. Among the tokens of a value
no two numbers stand side by side, so that they are scanned as they were written.

* `readFrom_tokens`: the tokens of a value complete that value.
* `Value.isChain_tokens_append`: no two numbers stand side by side in them.
* **`Value.parse?_of_writtenAs`**: a text that writes a value is read as the value, whatever blanks
  stand in it and however its strings are spelled; `Value.parse?_compact`: so is the text that the
  library writes for a value with legible tokens.
* `Value.legible_object`: an object is legible if its names and the values of its members are.
-/

namespace BufferPlan.Json

/-! ## Reading tokens -/

theorem readFrom_of_advance {e e' : Expected} {stack stack' : List Frame} {t : Token}
    (h : advance e stack t = some (e', stack')) (rest : List Token) :
    readFrom e stack (t :: rest) = readFrom e' stack' rest := by
  simp [readFrom, h]

/-- A value does not begin with the end of an array. -/
theorem Value.exists_tokens_eq_cons (v : Value) :
    ∃ t ts, v.tokens = t :: ts ∧ t ≠ .endArray := by
  match v with
  | .null | .bool _ | .number _ | .string _ | .array [] | .array (_ :: _) | .object []
  | .object ((_, _) :: _) => exact ⟨_, _, by rw [tokens], Token.noConfusion⟩

/-- A first item is read like any other value. -/
theorem readFrom_itemOrEnd (v : Value) (stack : List Frame) (rest : List Token) :
    readFrom .itemOrEnd stack (v.tokens ++ rest) = readFrom .value stack (v.tokens ++ rest) := by
  obtain ⟨t, ts, htokens, ht⟩ := v.exists_tokens_eq_cons
  have hadvance : advance .itemOrEnd stack t = advance .value stack t := by
    unfold advance
    split <;> simp_all
  rw [htokens, List.cons_append, readFrom, readFrom, hadvance]

mutual

/-- **The tokens of a value complete that value**, whatever stands around it and behind it. -/
theorem readFrom_tokens : ∀ (v : Value) (stack : List Frame) (rest : List Token),
    readFrom .value stack (v.tokens ++ rest) = readFrom (.after v) stack rest
  | .null, _, _ | .bool _, _, _ | .number _, _, _ | .string _, _, _ => by
    rw [Value.tokens]
    rfl
  | .array [], _, _ | .object [], _, _ => by
    rw [Value.tokens]
    rfl
  | .array (v :: vs), stack, rest => by
    rw [Value.tokens, List.cons_append, List.append_assoc, readFrom_of_advance rfl,
      readFrom_itemOrEnd, readFrom_tokens v, readFrom_itemTokens vs]
    rfl
  | .object ((key, v) :: ms), stack, rest => by
    rw [Value.tokens, List.cons_append, List.cons_append, List.cons_append, List.append_assoc,
      readFrom_of_advance rfl, readFrom_of_advance rfl, readFrom_of_advance rfl,
      readFrom_tokens v, readFrom_memberTokens ms]
    rfl

/-- The items behind a first one complete the array. -/
theorem readFrom_itemTokens : ∀ (vs : List Value) (v : Value) (read : List Value)
    (stack : List Frame) (rest : List Token),
    readFrom (.after v) (.items read :: stack) (Value.itemTokens vs ++ rest) =
      readFrom (.after (.array (read.reverse ++ v :: vs))) stack rest
  | [], v, read, stack, rest => by
    rw [Value.itemTokens, List.singleton_append, readFrom_of_advance rfl, List.reverse_cons]
  | w :: vs, v, read, stack, rest => by
    rw [Value.itemTokens, List.cons_append, List.append_assoc, readFrom_of_advance rfl,
      readFrom_tokens w, readFrom_itemTokens vs, List.reverse_cons, List.append_assoc]
    rfl

/-- The members behind a first one complete the object. -/
theorem readFrom_memberTokens : ∀ (ms : List (List Piece × Value)) (key : List Piece) (v : Value)
    (read : List (List Piece × Value)) (stack : List Frame) (rest : List Token),
    readFrom (.after v) (.member read key :: stack) (Value.memberTokens ms ++ rest) =
      readFrom (.after (.object (read.reverse ++ (key, v) :: ms))) stack rest
  | [], key, v, read, stack, rest => by
    rw [Value.memberTokens, List.singleton_append, readFrom_of_advance rfl, List.reverse_cons]
  | (k, w) :: ms, key, v, read, stack, rest => by
    rw [Value.memberTokens, List.cons_append, List.cons_append, List.cons_append,
      List.append_assoc, readFrom_of_advance rfl, readFrom_of_advance rfl, readFrom_of_advance rfl,
      readFrom_tokens w, readFrom_memberTokens ms, List.reverse_cons, List.append_assoc]
    rfl

end

theorem Value.ofTokens?_tokens (v : Value) : ofTokens? v.tokens = some v := by
  have h := readFrom_tokens v [] []
  rw [List.append_nil] at h
  exact h

/-! ## Numbers kept apart -/

/-- A token that is no number may stand in front of any. -/
theorem isChain_cons_of_not_isNumber {t : Token} (ht : t.isNumber = false) {ts : List Token}
    (hts : ts.IsChain Token.Apart) : (t :: ts).IsChain Token.Apart :=
  List.isChain_cons.mpr ⟨fun _ _ h => Bool.false_ne_true (ht.symm.trans h.1), hts⟩

namespace Value

theorem noNumberFirst_itemTokens (vs : List Value) (rest : List Token) :
    NoNumberFirst (itemTokens vs ++ rest) := by
  cases vs <;> rw [itemTokens] <;> rintro t ⟨⟩ <;> rfl

theorem noNumberFirst_memberTokens (ms : List (List Piece × Value)) (rest : List Token) :
    NoNumberFirst (memberTokens ms ++ rest) := by
  cases ms <;> rw [memberTokens] <;> rintro t ⟨⟩ <;> rfl

mutual

/-- **No two numbers stand side by side in the tokens of a value**, nor where they end if no number
follows. -/
theorem isChain_tokens_append : ∀ (v : Value) {rest : List Token}, NoNumberFirst rest →
    rest.IsChain Token.Apart → (v.tokens ++ rest).IsChain Token.Apart
  | .null, rest, _, hrest | .bool _, rest, _, hrest | .string _, rest, _, hrest => by
    rw [tokens]
    exact isChain_cons_of_not_isNumber rfl hrest
  | .number _, rest, hfirst, hrest => by
    rw [tokens]
    refine List.isChain_cons.mpr ⟨fun t ht h => ?_, hrest⟩
    exact Bool.false_ne_true ((hfirst t ht).symm.trans h.2)
  | .array [], rest, _, hrest | .object [], rest, _, hrest => by
    rw [tokens]
    exact isChain_cons_of_not_isNumber rfl (isChain_cons_of_not_isNumber rfl hrest)
  | .array (v :: vs), rest, _, hrest => by
    rw [tokens, List.cons_append, List.append_assoc]
    exact isChain_cons_of_not_isNumber rfl (isChain_tokens_append v
      (noNumberFirst_itemTokens vs rest) (isChain_itemTokens_append vs hrest))
  | .object ((key, v) :: ms), rest, _, hrest => by
    rw [tokens, List.cons_append, List.cons_append, List.cons_append, List.append_assoc]
    exact isChain_cons_of_not_isNumber rfl (isChain_cons_of_not_isNumber rfl
      (isChain_cons_of_not_isNumber rfl (isChain_tokens_append v
        (noNumberFirst_memberTokens ms rest) (isChain_memberTokens_append ms hrest))))

theorem isChain_itemTokens_append : ∀ (vs : List Value) {rest : List Token},
    rest.IsChain Token.Apart → (itemTokens vs ++ rest).IsChain Token.Apart
  | [], rest, hrest => by
    rw [itemTokens]
    exact isChain_cons_of_not_isNumber rfl hrest
  | v :: vs, rest, hrest => by
    rw [itemTokens, List.cons_append, List.append_assoc]
    exact isChain_cons_of_not_isNumber rfl (isChain_tokens_append v
      (noNumberFirst_itemTokens vs rest) (isChain_itemTokens_append vs hrest))

theorem isChain_memberTokens_append : ∀ (ms : List (List Piece × Value)) {rest : List Token},
    rest.IsChain Token.Apart → (memberTokens ms ++ rest).IsChain Token.Apart
  | [], rest, hrest => by
    rw [memberTokens]
    exact isChain_cons_of_not_isNumber rfl hrest
  | (key, v) :: ms, rest, hrest => by
    rw [memberTokens, List.cons_append, List.cons_append, List.cons_append, List.append_assoc]
    exact isChain_cons_of_not_isNumber rfl (isChain_cons_of_not_isNumber rfl
      (isChain_cons_of_not_isNumber rfl (isChain_tokens_append v
        (noNumberFirst_memberTokens ms rest) (isChain_memberTokens_append ms hrest))))

end

/-! ## The text of a value -/

/-- The text writes the value, with blanks around its tokens and strings spelled in any way. -/
def WrittenAs (v : Value) (s : String) : Prop := Spells v.tokens s.toList

/-- **A text that writes a value is read as the value.** -/
theorem parse?_of_writtenAs {v : Value} {s : String} (h : v.WrittenAs s) : parse? s = some v := by
  have hapart : v.tokens.IsChain Token.Apart := by
    have h : (v.tokens ++ []).IsChain Token.Apart :=
      isChain_tokens_append v (by rintro t ⟨⟩) List.IsChain.nil
    rwa [List.append_nil] at h
  rw [parse?, scan_of_spells h hapart]
  exact v.ofTokens?_tokens

/-- Every token of the value is read back from its own text. -/
def Legible (v : Value) : Prop := ∀ t ∈ v.tokens, t.Legible

/-- The text of a legible value is read as the value. -/
theorem parse?_compact {v : Value} (hv : v.Legible) : parse? v.compact = some v := by
  have h : v.WrittenAs v.compact := by
    rw [WrittenAs, compact, String.toList_ofList]
    exact spells_text hv
  exact parse?_of_writtenAs h

theorem legible_null : null.Legible := by
  rw [Legible, tokens, List.forall_mem_singleton]
  trivial

theorem legible_number {text : List Char} (h : Numeral text) : (number text).Legible := by
  rw [Legible, tokens, List.forall_mem_singleton]
  exact h

theorem legible_string {ps : List Piece} (h : ∀ p ∈ ps, p.Legible) : (string ps).Legible := by
  rw [Legible, tokens, List.forall_mem_singleton]
  exact h

theorem legible_memberTokens {ms : List (List Piece × Value)}
    (h : ∀ m ∈ ms, (∀ p ∈ m.1, p.Legible) ∧ m.2.Legible) : ∀ t ∈ memberTokens ms, t.Legible := by
  induction ms with
  | nil =>
    rw [memberTokens, List.forall_mem_singleton]
    trivial
  | cons m ms ih =>
    obtain ⟨⟨hkey, hv⟩, hms⟩ := List.forall_mem_cons.mp h
    rw [memberTokens, List.forall_mem_cons, List.forall_mem_cons, List.forall_mem_cons,
      List.forall_mem_append]
    exact ⟨trivial, hkey, trivial, hv, ih hms⟩

/-- **An object is legible if its names and the values of its members are.** -/
theorem legible_object {ms : List (List Piece × Value)}
    (h : ∀ m ∈ ms, (∀ p ∈ m.1, p.Legible) ∧ m.2.Legible) : (object ms).Legible := by
  cases ms with
  | nil =>
    rw [Legible, tokens, List.forall_mem_cons, List.forall_mem_singleton]
    exact ⟨trivial, trivial⟩
  | cons m ms =>
    obtain ⟨⟨hkey, hv⟩, hms⟩ := List.forall_mem_cons.mp h
    rw [Legible, tokens, List.forall_mem_cons, List.forall_mem_cons, List.forall_mem_cons,
      List.forall_mem_append]
    exact ⟨trivial, hkey, trivial, hv, legible_memberTokens hms⟩

end Value

end BufferPlan.Json
