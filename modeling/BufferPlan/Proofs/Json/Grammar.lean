import BufferPlan.Proofs.Json.Object

/-!
# Only what is written so is read

A text that writes a value is read as the value. Here is the converse: no other text is read as it,
so the scanner and the reader of tokens accept the grammar and nothing more. Both are machines, and
a run of either is followed from one step to the next. At every character of a text, what is still
to come completes what the scanner is in the middle of (`Mode.Completes`, and for the parts of a
number `NumberPart.Completes`); at every token, what was read is what stands open around the place
(`Stands`).

* `NumberPart.completes_cons`, `step_completes`, **`spells_of_scan`**: one character of a number and
  of a text, and a text that is scanned.
* `Value.tokens_array`, `Value.tokens_object_eq`: arrays and objects as lists with commas.
* `advance_stands`, **`Value.tokens_of_ofTokens?`**: one token, and tokens that are read.
* **`Value.parse?_eq_some_iff`**: a text is read as a value if it writes the value, and not
  otherwise.
-/

namespace BufferPlan.Json

/-! ## Numbers -/

/-- What may stand behind the whole part of a number. -/
def Tail (cs : List Char) : Prop :=
  ∃ fraction exponent, cs = fraction ++ exponent ∧ Fraction fraction ∧ Exponent exponent

namespace NumberPart

/-- The characters complete a number that was read up to this part. -/
def Completes : NumberPart → List Char → Prop
  | minus, cs => ∃ whole tail, cs = whole ++ tail ∧ Whole whole ∧ Tail tail
  | zero, cs => Tail cs
  | digits, cs => ∃ ds tail, cs = ds ++ tail ∧ (∀ d ∈ ds, d.isDigit = true) ∧ Tail tail
  | point, cs => ∃ ds rest, cs = ds ++ rest ∧ Digits ds ∧ Exponent rest
  | fraction, cs => ∃ ds rest, cs = ds ++ rest ∧ (∀ d ∈ ds, d.isDigit = true) ∧ Exponent rest
  | mark, cs => ∃ sign ds, cs = sign ++ ds ∧ sign ∈ [[], ['+'], ['-']] ∧ Digits ds
  | sign, cs => Digits cs
  | exponent, cs => ∀ d ∈ cs, d.isDigit = true

variable {p q : NumberPart} {c : Char} {cs : List Char}

theorem digits_cons (hc : c.isDigit = true) (hcs : ∀ d ∈ cs, d.isDigit = true) :
    Digits (c :: cs) :=
  ⟨List.cons_ne_nil c cs, List.forall_mem_cons.mpr ⟨hc, hcs⟩⟩

theorem exponent_of_mark (hc : c = 'e' ∨ c = 'E') (h : mark.Completes cs) : Exponent (c :: cs) := by
  obtain ⟨sign, ds, rfl, hsign, hds⟩ := h
  exact Or.inr ⟨c, sign, ds, rfl, by simpa using hc, hsign, hds⟩

theorem tail_of_mark (hc : c = 'e' ∨ c = 'E') (h : mark.Completes cs) : Tail (c :: cs) :=
  ⟨[], c :: cs, rfl, Or.inl rfl, exponent_of_mark hc h⟩

theorem tail_of_point (h : point.Completes cs) : Tail ('.' :: cs) := by
  obtain ⟨ds, rest, rfl, hds, hrest⟩ := h
  exact ⟨'.' :: ds, rest, rfl, Or.inr ⟨ds, rfl, hds⟩, hrest⟩

/-- A number may end where nothing is missing. -/
theorem completes_nil (hp : p.mayEnd = true) : p.Completes [] := by
  have htail : Tail [] := ⟨[], [], rfl, Or.inl rfl, Or.inl rfl⟩
  cases p with
  | zero => exact htail
  | digits => exact ⟨[], [], rfl, List.forall_mem_nil _, htail⟩
  | fraction => exact ⟨[], [], rfl, List.forall_mem_nil _, Or.inl rfl⟩
  | exponent => exact List.forall_mem_nil _
  | minus | point | mark | sign => cases hp

/-- **One character more**: what completes a number behind it completes the number with it. -/
theorem completes_cons (h : p.next? c = some q) (hcs : q.Completes cs) : p.Completes (c :: cs) := by
  cases p with
  | minus =>
    rcases ite_eq_iff.mp h with ⟨rfl, ⟨⟩⟩ | ⟨hzero, h⟩
    · exact ⟨['0'], cs, rfl, Or.inl rfl, hcs⟩
    · obtain ⟨hdigit, ⟨⟩⟩ := Option.ite_none_right_eq_some.mp h
      obtain ⟨ds, tail, rfl, hds, htail⟩ := hcs
      have hlead : (c :: ds).head? ≠ some '0' := fun heq => hzero (Option.some.inj heq)
      exact ⟨c :: ds, tail, rfl, Or.inr ⟨digits_cons hdigit hds, hlead⟩, htail⟩
  | zero =>
    rcases ite_eq_iff.mp h with ⟨rfl, ⟨⟩⟩ | ⟨-, h⟩
    · exact tail_of_point hcs
    · obtain ⟨hmark, ⟨⟩⟩ := Option.ite_none_right_eq_some.mp h
      exact tail_of_mark hmark hcs
  | digits =>
    rcases ite_eq_iff.mp h with ⟨hdigit, ⟨⟩⟩ | ⟨-, h⟩
    · obtain ⟨ds, tail, rfl, hds, htail⟩ := hcs
      exact ⟨c :: ds, tail, rfl, List.forall_mem_cons.mpr ⟨hdigit, hds⟩, htail⟩
    · refine ⟨[], c :: cs, rfl, List.forall_mem_nil _, ?_⟩
      rcases ite_eq_iff.mp h with ⟨rfl, ⟨⟩⟩ | ⟨-, h⟩
      · exact tail_of_point hcs
      · obtain ⟨hmark, ⟨⟩⟩ := Option.ite_none_right_eq_some.mp h
        exact tail_of_mark hmark hcs
  | point =>
    obtain ⟨hdigit, ⟨⟩⟩ := Option.ite_none_right_eq_some.mp h
    obtain ⟨ds, rest, rfl, hds, hrest⟩ := hcs
    exact ⟨c :: ds, rest, rfl, digits_cons hdigit hds, hrest⟩
  | fraction =>
    rcases ite_eq_iff.mp h with ⟨hdigit, ⟨⟩⟩ | ⟨-, h⟩
    · obtain ⟨ds, rest, rfl, hds, hrest⟩ := hcs
      exact ⟨c :: ds, rest, rfl, List.forall_mem_cons.mpr ⟨hdigit, hds⟩, hrest⟩
    · obtain ⟨hmark, ⟨⟩⟩ := Option.ite_none_right_eq_some.mp h
      exact ⟨[], c :: cs, rfl, List.forall_mem_nil _, exponent_of_mark hmark hcs⟩
  | mark =>
    rcases ite_eq_iff.mp h with ⟨hdigit, ⟨⟩⟩ | ⟨-, h⟩
    · exact ⟨[], c :: cs, rfl, by decide, digits_cons hdigit hcs⟩
    · obtain ⟨hsign, ⟨⟩⟩ := Option.ite_none_right_eq_some.mp h
      exact ⟨[c], cs, rfl, by simpa using hsign, hcs⟩
  | sign =>
    obtain ⟨hdigit, ⟨⟩⟩ := Option.ite_none_right_eq_some.mp h
    exact digits_cons hdigit hcs
  | exponent =>
    obtain ⟨hdigit, ⟨⟩⟩ := Option.ite_none_right_eq_some.mp h
    exact List.forall_mem_cons.mpr ⟨hdigit, hcs⟩

/-! A number begins with a minus, with a zero or with another digit. -/

theorem numeral_of_minus (h : minus.Completes cs) : Numeral ('-' :: cs) := by
  obtain ⟨whole, _, rfl, hwhole, fraction, exponent, rfl, hfraction, hexponent⟩ := h
  exact ⟨['-'], whole, fraction, exponent, rfl, by decide, hwhole, hfraction, hexponent⟩

theorem numeral_of_zero (h : zero.Completes cs) : Numeral ('0' :: cs) := by
  obtain ⟨fraction, exponent, rfl, hfraction, hexponent⟩ := h
  exact ⟨[], ['0'], fraction, exponent, rfl, by decide, Or.inl rfl, hfraction, hexponent⟩

theorem numeral_of_digits (hc : c.isDigit = true) (hzero : c ≠ '0') (h : digits.Completes cs) :
    Numeral (c :: cs) := by
  obtain ⟨ds, _, rfl, hds, fraction, exponent, rfl, hfraction, hexponent⟩ := h
  have hlead : (c :: ds).head? ≠ some '0' := fun heq => hzero (Option.some.inj heq)
  exact ⟨[], c :: ds, fraction, exponent, rfl, by decide, Or.inr ⟨digits_cons hc hds, hlead⟩,
    hfraction, hexponent⟩

end NumberPart

/-! ## Tokens of a text -/

/-- The rest of the text, from inside a string on: what is missing of the string, and the tokens
behind it. -/
def StringRest (read : List Piece) (ts : List Token) (s : List Char) : Prop :=
  ∃ ps w us rest, ts = .string (read.reverse ++ ps) :: us ∧ s = w ++ '"' :: rest ∧ Raw ps w ∧
    Spells us rest

/-- The text completes the token that the scanner is in the middle of, and writes the others. -/
def Mode.Completes : Mode → List Token → List Char → Prop
  | .between, ts, s => Spells ts s
  | .word t next letters, ts, s =>
    ∃ us rest, ts = t :: us ∧ s = next :: (letters ++ rest) ∧ Spells us rest
  | .number p read, ts, s =>
    ∃ cs us rest, ts = .number (read.reverse ++ cs) :: us ∧ s = cs ++ rest ∧ p.Completes cs ∧
      Spells us rest
  | .string read, ts, s => StringRest read ts s
  | .escape read, ts, s =>
    ∃ p w rest, s = w ++ rest ∧ p.Spelled ('\\' :: w) ∧ StringRest (p :: read) ts rest
  | .unit read value missing, ts, s =>
    ∃ cs ds c d rest, s = cs ++ c :: rest ∧ cs.length = missing - 1 ∧
      List.Forall₂ (fun c d => Text.Hex.digit? c = some d) cs ds ∧ Text.Hex.digit? c = some d ∧
      StringRest (.unit (UInt16.ofNat (16 * ds.foldl (fun n d => 16 * n + d) value + d)) :: read)
        ts rest

/-- What the first character of a token, or a blank, leads to. -/
inductive Starts (c : Char) : List Token → Mode → Prop
  | blank (h : c ∈ [' ', '\t', '\n', '\r']) : Starts c [] .between
  | mark {t : Token} (h : t.Spelled [c]) : Starts c [t] .between
  | word {t : Token} {next : Char} {letters : List Char} (h : t.Spelled (c :: next :: letters)) :
    Starts c [] (.word t next letters)
  | quote (h : c = '"') : Starts c [] (.string [])
  | number {p : NumberPart} (h : ∀ cs, p.Completes cs → Numeral (c :: cs)) :
    Starts c [] (.number p [c])

theorem starts_of_start {c : Char} {out : List Token} {m : Mode} (h : start c = some (out, m)) :
    Starts c out m := by
  rcases ite_eq_iff.mp h with ⟨hspace, ⟨⟩⟩ | ⟨-, h⟩
  · exact .blank (by simpa [isSpace, or_assoc] using hspace)
  -- the marks that are tokens by themselves, and then the words
  iterate 6
    rcases ite_eq_iff.mp h with ⟨rfl, ⟨⟩⟩ | ⟨-, h⟩
    · exact .mark rfl
  iterate 3
    rcases ite_eq_iff.mp h with ⟨rfl, ⟨⟩⟩ | ⟨-, h⟩
    · exact .word rfl
  rcases ite_eq_iff.mp h with ⟨hquote, ⟨⟩⟩ | ⟨-, h⟩
  · exact .quote hquote
  rcases ite_eq_iff.mp h with ⟨rfl, ⟨⟩⟩ | ⟨-, h⟩
  · exact .number fun cs => NumberPart.numeral_of_minus
  rcases ite_eq_iff.mp h with ⟨rfl, ⟨⟩⟩ | ⟨hzero, h⟩
  · exact .number fun cs => NumberPart.numeral_of_zero
  obtain ⟨hdigit, ⟨⟩⟩ := Option.ite_none_right_eq_some.mp h
  exact .number fun cs => NumberPart.numeral_of_digits hdigit hzero

variable {m m' : Mode} {c : Char} {out ts : List Token} {s : List Char}

/-- One character between tokens: the tokens behind it are written with it in front. -/
theorem spells_of_start (h : start c = some (out, m)) (hs : m.Completes ts s) :
    Spells (out ++ ts) (c :: s) := by
  cases starts_of_start h with
  | blank hc =>
    have hblanks : Blanks [c] := List.forall_mem_singleton.mpr hc
    exact Spells.blanks_append hs hblanks
  | mark ht => exact .cons blanks_nil ht hs
  | word ht =>
    obtain ⟨us, rest, rfl, rfl, hrest⟩ := hs
    exact .cons blanks_nil ht hrest
  | quote hc =>
    obtain ⟨ps, w, us, rest, rfl, rfl, ⟨parts, hparts, rfl⟩, hrest⟩ := hs
    have hstring : (Token.string ps).Spelled ('"' :: (parts.flatten ++ ['"'])) :=
      ⟨parts, hparts, rfl⟩
    have hspells := Spells.cons blanks_nil hstring hrest
    subst hc
    simpa using hspells
  | number hnumeral =>
    obtain ⟨cs, us, rest, rfl, rfl, hcs, hrest⟩ := hs
    have hnumber : (Token.number (c :: cs)).Spelled (c :: cs) := ⟨hnumeral cs hcs, rfl⟩
    exact .cons blanks_nil hnumber hrest

/-- A part more is missing of a string if the text goes on with one of its spellings. -/
theorem StringRest.cons {read : List Piece} {p : Piece} {w : List Char} (hp : p.Spelled w)
    (h : StringRest (p :: read) ts s) : StringRest read ts (w ++ s) := by
  obtain ⟨ps, v, us, rest, rfl, rfl, hraw, hrest⟩ := h
  refine ⟨p :: ps, w ++ v, us, rest, ?_, by rw [List.append_assoc], ?_, hrest⟩
  · rw [List.reverse_cons, List.append_assoc, List.singleton_append]
  · exact raw_cons_iff.mpr ⟨w, v, hp, hraw, rfl⟩

theorem mem_shortEscapes {d : Char} (h : escaped? c = some d) : (c, d) ∈ shortEscapes := by
  rcases ite_eq_iff.mp h with ⟨rfl | rfl | rfl, ⟨⟩⟩ | ⟨-, h⟩
  iterate 3 · decide
  iterate 4
    rcases ite_eq_iff.mp h with ⟨rfl, ⟨⟩⟩ | ⟨-, h⟩
    · decide
  obtain ⟨rfl, ⟨⟩⟩ := Option.ite_none_right_eq_some.mp h
  decide

/-- Four digits behind a `u` are a part of the string. -/
theorem escape_of_unit {read : List Piece} (h : (Mode.unit read 0 4).Completes ts s) :
    (Mode.escape read).Completes ts ('u' :: s) := by
  obtain ⟨cs, ds, c₀, d₀, rest, rfl, hlength, hds, h₀, hrest⟩ := h
  obtain ⟨c₃, c₂, c₁, rfl⟩ := List.length_eq_three.mp hlength
  obtain ⟨d₃, _, h₃, hds₂, rfl⟩ := List.forall₂_cons_left_iff.mp hds
  obtain ⟨d₂, _, h₂, hds₁, rfl⟩ := List.forall₂_cons_left_iff.mp hds₂
  obtain ⟨d₁, _, h₁, hds₀, rfl⟩ := List.forall₂_cons_left_iff.mp hds₁
  obtain rfl := List.forall₂_nil_left_iff.mp hds₀
  have hspelled := Piece.Spelled.digits h₃ h₂ h₁ h₀
  refine ⟨_, ['u', c₃, c₂, c₁, c₀], rest, rfl, hspelled, ?_⟩
  simpa using hrest

/-- The end of the text completes a mode with nothing missing. -/
theorem completes_of_finish (h : finish m = some ts) : m.Completes ts [] := by
  cases m with
  | between =>
    cases h
    exact .nil blanks_nil
  | number p read =>
    obtain ⟨hend, ⟨⟩⟩ := Option.ite_none_right_eq_some.mp h
    exact ⟨[], [], [], by rw [List.append_nil], rfl, NumberPart.completes_nil hend, .nil blanks_nil⟩
  | word | string | escape | unit => cases h

theorem step_number_completes {p : NumberPart} {read : List Char}
    (h : step (.number p read) c = some (out, m')) (hs : m'.Completes ts s) :
    (Mode.number p read).Completes (out ++ ts) (c :: s) := by
  cases hnext : p.next? c with
  | some q =>
    simp only [step, hnext] at h
    cases h
    obtain ⟨cs, us, rest, rfl, rfl, hcs, hrest⟩ := hs
    refine ⟨c :: cs, us, rest, ?_, rfl, NumberPart.completes_cons hnext hcs, hrest⟩
    rw [List.reverse_cons, List.append_assoc]
    rfl
  | none =>
    -- the character ends the number and begins what is behind it
    simp only [step, hnext] at h
    obtain ⟨hend, h⟩ := Option.ite_none_right_eq_some.mp h
    obtain ⟨⟨out, m⟩, hstart, ⟨⟩⟩ := Option.map_eq_some_iff.mp h
    refine ⟨[], out ++ ts, c :: s, ?_, rfl, NumberPart.completes_nil hend,
      spells_of_start hstart hs⟩
    rw [List.append_nil]
    rfl

theorem step_string_completes {read : List Piece} (h : step (.string read) c = some (out, m'))
    (hs : m'.Completes ts s) : (Mode.string read).Completes (out ++ ts) (c :: s) := by
  rcases ite_eq_iff.mp h with ⟨rfl, ⟨⟩⟩ | ⟨hquote, h⟩
  · exact ⟨[], [], ts, s, by rw [List.append_nil]; rfl, rfl, ⟨[], .nil, rfl⟩, hs⟩
  rcases ite_eq_iff.mp h with ⟨rfl, ⟨⟩⟩ | ⟨hbackslash, h⟩
  · obtain ⟨p, w, rest, rfl, hp, hrest⟩ := hs
    exact hrest.cons hp
  rcases ite_eq_iff.mp h with ⟨-, ⟨⟩⟩ | ⟨hlarge, ⟨⟩⟩
  exact StringRest.cons (.plain (Nat.not_lt.mp hlarge) hquote hbackslash) hs

theorem step_unit_completes {read : List Piece} {value missing : Nat}
    (h : step (.unit read value missing) c = some (out, m')) (hs : m'.Completes ts s) :
    (Mode.unit read value missing).Completes (out ++ ts) (c :: s) := by
  cases hdigit : Text.Hex.digit? c with
  | none =>
    simp only [step, hdigit] at h
    cases h
  | some d =>
    simp only [step, hdigit] at h
    rcases ite_eq_iff.mp h with ⟨hlast, ⟨⟩⟩ | ⟨hmore, ⟨⟩⟩
    · exact ⟨[], [], c, d, s, rfl, (Nat.sub_eq_zero_of_le hlast).symm, .nil, hdigit, hs⟩
    · obtain ⟨cs, ds, b, e, rest, rfl, hlength, hds, he, hrest⟩ := hs
      refine ⟨c :: cs, d :: ds, b, e, rest, rfl, ?_, .cons hdigit hds, he, hrest⟩
      rw [List.length_cons]
      omega

/-- **One character**: what completes the mode behind it completes the mode before it. -/
theorem step_completes (h : step m c = some (out, m')) (hs : m'.Completes ts s) :
    m.Completes (out ++ ts) (c :: s) := by
  cases m with
  | between => exact spells_of_start h hs
  | word t next letters =>
    cases letters with
    | nil =>
      simp only [step] at h
      obtain ⟨rfl, ⟨⟩⟩ := Option.ite_none_right_eq_some.mp h
      exact ⟨ts, s, rfl, rfl, hs⟩
    | cons l letters =>
      simp only [step] at h
      obtain ⟨rfl, ⟨⟩⟩ := Option.ite_none_right_eq_some.mp h
      obtain ⟨us, rest, rfl, rfl, hrest⟩ := hs
      exact ⟨us, rest, rfl, rfl, hrest⟩
  | number p read => exact step_number_completes h hs
  | string read => exact step_string_completes h hs
  | escape read =>
    rcases ite_eq_iff.mp h with ⟨rfl, ⟨⟩⟩ | ⟨-, h⟩
    · exact escape_of_unit hs
    · obtain ⟨d, hd, ⟨⟩⟩ := Option.map_eq_some_iff.mp h
      exact ⟨.char d, [c], s, rfl, .short (mem_shortEscapes hd), hs⟩
  | unit read value missing => exact step_unit_completes h hs

/-- **A text that is scanned writes the tokens**, from whatever mode on it is read. -/
theorem completes_of_scanFrom (h : scanFrom m s = some ts) : m.Completes ts s := by
  induction s generalizing m ts with
  | nil => exact completes_of_finish h
  | cons c s ih =>
    cases hstep : step m c with
    | none =>
      simp only [scanFrom, hstep] at h
      cases h
    | some r =>
      simp only [scanFrom, hstep] at h
      obtain ⟨us, hus, rfl⟩ := Option.map_eq_some_iff.mp h
      exact step_completes hstep (ih hus)

theorem spells_of_scan (h : scan s = some ts) : Spells ts s := completes_of_scanFrom h

/-! ## The tokens of arrays and objects -/

namespace Value

/-- The tokens of one member. -/
def pairTokens (m : List Piece × Value) : List Token := .string m.1 :: .colon :: m.2.tokens

theorem tokens_append_itemTokens (v : Value) (vs : List Value) :
    v.tokens ++ itemTokens vs = [.comma].intercalate ((v :: vs).map tokens) ++ [.endArray] := by
  induction vs generalizing v with
  | nil =>
    rw [itemTokens]
    simp
  | cons w vs ih =>
    rw [itemTokens, ih]
    simp

/-- The tokens of an array are those of its items with commas between them. -/
theorem tokens_array (vs : List Value) :
    (array vs).tokens = .beginArray :: ([.comma].intercalate (vs.map tokens) ++ [.endArray]) := by
  cases vs with
  | nil => rw [tokens]; rfl
  | cons v vs => rw [tokens, tokens_append_itemTokens]

theorem pairTokens_append_memberTokens (m : List Piece × Value) (ms : List (List Piece × Value)) :
    pairTokens m ++ memberTokens ms =
      [.comma].intercalate ((m :: ms).map pairTokens) ++ [.endObject] := by
  induction ms generalizing m with
  | nil =>
    rw [memberTokens]
    simp
  | cons n ms ih =>
    have hcons : memberTokens (n :: ms) = .comma :: (pairTokens n ++ memberTokens ms) :=
      memberTokens_cons n ms
    rw [hcons, ih]
    simp

/-- The tokens of an object are those of its members with commas between them. -/
theorem tokens_object_eq (ms : List (List Piece × Value)) :
    (object ms).tokens =
      .beginObject :: ([.comma].intercalate (ms.map pairTokens) ++ [.endObject]) := by
  cases ms with
  | nil => rw [tokens]; rfl
  | cons m ms =>
    rw [tokens_object, ← pairTokens_append_memberTokens]
    rfl

end Value

/-! ## Values of tokens -/

/-- Separators between the items of a list are separators behind all of them but the last. -/
theorem intercalate_concat {α : Type} (sep : List α) (l : List (List α)) (x : List α) :
    sep.intercalate (l ++ [x]) = (l.flatMap fun y => y ++ sep) ++ x := by
  induction l with
  | nil => simp
  | cons y l ih =>
    cases l with
    | nil => simp
    | cons z l =>
      rw [List.cons_append, List.cons_append, List.intercalate_cons_cons, ← List.cons_append, ih]
      simp only [List.flatMap_cons, List.append_assoc]

/-- The tokens that were read of an array or object that is not closed yet. -/
def Frame.tokens : Frame → List Token
  | items read => .beginArray :: read.reverse.flatMap fun v => v.tokens ++ [.comma]
  | members read => .beginObject :: read.reverse.flatMap fun m => Value.pairTokens m ++ [.comma]
  | member read key =>
    .beginObject :: (read.reverse.flatMap fun m => Value.pairTokens m ++ [.comma]) ++
      [.string key, .colon]

/-- The tokens that were read of the arrays and objects around a place. -/
def stackTokens (stack : List Frame) : List Token := stack.reverse.flatMap Frame.tokens

/-- These tokens were read where the reader stands. A name is read before its colon. -/
def Stands (before : List Token) : Expected → List Frame → Prop
  | .colon, stack => before ++ [.colon] = stackTokens stack
  | .after v, stack => before = stackTokens stack ++ v.tokens
  | .value, stack | .itemOrEnd, stack | .key, stack | .keyOrEnd, stack => before = stackTokens stack

variable {e e' : Expected} {stack stack' : List Frame} {t : Token} {before : List Token}

theorem stackTokens_cons (f : Frame) (stack : List Frame) :
    stackTokens (f :: stack) = stackTokens stack ++ f.tokens := by
  simp [stackTokens]

theorem beginValue_stands (h : beginValue stack t = some (e, stack'))
    (hbefore : before = stackTokens stack) : Stands (before ++ [t]) e stack' := by
  subst hbefore
  cases t with
  | null | bool | number | string =>
    cases h
    simp [Stands, Value.tokens]
  | beginArray | beginObject =>
    cases h
    simp [Stands, stackTokens_cons, Frame.tokens]
  | endArray | endObject | colon | comma => cases h

/-- What was read of an array, its last item and its end are the tokens of the array. -/
theorem tokens_items_append (read : List Value) (v : Value) :
    (Frame.items read).tokens ++ v.tokens ++ [.endArray] =
      (Value.array (v :: read).reverse).tokens := by
  rw [Value.tokens_array, List.reverse_cons, List.map_append, List.map_singleton,
    intercalate_concat, List.flatMap_map]
  rfl

/-- What was read of an object, its last value and its end are the tokens of the object. -/
theorem tokens_member_append (read : List (List Piece × Value)) (key : List Piece) (v : Value) :
    (Frame.member read key).tokens ++ v.tokens ++ [.endObject] =
      (Value.object ((key, v) :: read).reverse).tokens := by
  rw [Value.tokens_object_eq, List.reverse_cons, List.map_append, List.map_singleton,
    intercalate_concat, List.flatMap_map]
  simp [Frame.tokens, Value.pairTokens]

/-- **One token**: what was read is what was read before it, and the token. -/
theorem advance_stands (h : advance e stack t = some (e', stack'))
    (hbefore : Stands before e stack) : Stands (before ++ [t]) e' stack' := by
  unfold advance at h
  split at h
  -- a value begins, or an array ends that has no items
  · exact beginValue_stands h hbefore
  · cases h
    simp only [Stands] at hbefore ⊢
    simp [hbefore, stackTokens_cons, Frame.tokens, Value.tokens]
  · exact beginValue_stands h hbefore
  -- a name, or an object ends that has no members
  · cases h
    simp only [Stands] at hbefore ⊢
    simp [hbefore, stackTokens_cons, Frame.tokens]
  · cases h
    simp only [Stands] at hbefore ⊢
    simp [hbefore, stackTokens_cons, Frame.tokens]
  · cases h
    simp only [Stands] at hbefore ⊢
    simp [hbefore, stackTokens_cons, Frame.tokens, Value.tokens]
  · cases h
    exact hbefore
  -- another item, or the end of the array
  · cases h
    simp only [Stands] at hbefore ⊢
    simp [hbefore, stackTokens_cons, Frame.tokens]
  · cases h
    simp only [Stands] at hbefore ⊢
    rw [hbefore, stackTokens_cons, List.append_assoc, List.append_assoc,
      ← List.append_assoc _ _ [_], tokens_items_append]
  -- another member, or the end of the object
  · cases h
    simp only [Stands] at hbefore ⊢
    simp [hbefore, stackTokens_cons, Frame.tokens, Value.pairTokens]
  · cases h
    simp only [Stands] at hbefore ⊢
    rw [hbefore, stackTokens_cons, List.append_assoc, List.append_assoc,
      ← List.append_assoc _ _ [_], tokens_member_append]
  · cases h

/-- **Tokens that are read are those of the value**, whatever was read before them. -/
theorem tokens_of_readFrom {v : Value} (h : readFrom e stack ts = some v)
    (hbefore : Stands before e stack) : before ++ ts = v.tokens := by
  induction ts generalizing before e stack with
  | nil =>
    simp only [readFrom] at h
    split at h
    · cases h
      rw [List.append_nil]
      exact hbefore
    · cases h
  | cons t ts ih =>
    cases hadvance : advance e stack t with
    | none =>
      simp only [readFrom, hadvance] at h
      cases h
    | some r =>
      simp only [readFrom, hadvance] at h
      rw [← ih h (advance_stands hadvance hbefore), List.append_assoc, List.singleton_append]

namespace Value

variable {v : Value} {text : String}

theorem tokens_of_ofTokens? (h : ofTokens? ts = some v) : ts = v.tokens := by
  have hbefore : Stands [] .value [] := rfl
  exact tokens_of_readFrom h hbefore

/-- **A text is read as a value if it writes the value**, and not otherwise. -/
theorem parse?_eq_some_iff : parse? text = some v ↔ v.WrittenAs text := by
  refine ⟨fun h => ?_, parse?_of_writtenAs⟩
  obtain ⟨ts, hscan, htokens⟩ := Option.bind_eq_some_iff.mp h
  obtain rfl := tokens_of_ofTokens? htokens
  exact spells_of_scan hscan

end Value

end BufferPlan.Json
