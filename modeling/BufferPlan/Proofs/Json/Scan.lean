import BufferPlan.Proofs.Json.Number
import Mathlib.Data.List.Chain

/-!
# Scanning what was written

A text spells tokens: blanks may stand in front of each of them and behind the last, and a character
of a string may stand for itself, behind a backslash or as a unit. However they are spelled, the
scanner gives the tokens back if no two numbers stand side by side: a number has no closing mark,
and the digits of a second one would go on with it.

* `Piece.Spelled`, `Token.Spelled` and `Spells`: the ways in which parts of a string, tokens and
  sequences of them may be written.
* `Token.spelled_text`: what is written for a token is one of its spellings if the token is
  **legible**, that is, can be told from its own text.
* `Piece.Spelled.scanFrom`: one part of a string is read back.
* `scanFrom_number`: a number is read up to a character that cannot go on with it.
* `Token.scanFrom_spelled`: one token is read back, whatever follows it.
* **`scan_of_spells`**: the tokens that a text spells are scanned.
-/

namespace BufferPlan.Json

/-- A character that completes no token. -/
theorem scanFrom_of_step {m n : Mode} {c : Char} (h : step m c = some ([], n)) (rest : List Char) :
    scanFrom m (c :: rest) = scanFrom n rest := by
  simp [scanFrom, h]

/-! ## Strings -/

/-- The letters that may stand behind a backslash, each with the character it stands for. -/
def shortEscapes : List (Char × Char) :=
  [('"', '"'), ('\\', '\\'), ('/', '/'), ('b', '\x08'), ('f', '\x0c'), ('n', '\n'), ('r', '\r'),
    ('t', '\t')]

/-- The ways in which a part of a string may be written. -/
inductive Piece.Spelled : Piece → List Char → Prop where
  /-- The character itself. -/
  | plain {c : Char} (hlarge : 0x20 ≤ c.toNat) (hquote : c ≠ '"') (hbackslash : c ≠ '\\') :
    Spelled (.char c) [c]
  /-- A letter behind a backslash. -/
  | short {letter c : Char} (h : (letter, c) ∈ shortEscapes) : Spelled (.char c) ['\\', letter]
  /-- Four hexadecimal digits, of either case. -/
  | digits {c₃ c₂ c₁ c₀ : Char} {d₃ d₂ d₁ d₀ : Nat} (h₃ : Text.Hex.digit? c₃ = some d₃)
    (h₂ : Text.Hex.digit? c₂ = some d₂) (h₁ : Text.Hex.digit? c₁ = some d₁)
    (h₀ : Text.Hex.digit? c₀ = some d₀) :
    Spelled (.unit (UInt16.ofNat (16 * (16 * (16 * d₃ + d₂) + d₁) + d₀)))
      ['\\', 'u', c₃, c₂, c₁, c₀]

/-- The part of a string is read back as it is. A control character without a short escape is not:
it is written, and so read back, as a unit. -/
def Piece.Legible : Piece → Prop
  | .char c => 0x20 ≤ c.toNat ∨ c ∈ ['\x08', '\x0c', '\n', '\r', '\t']
  | .unit _ => True

/-- What is written for a unit is one of its spellings. -/
theorem Piece.spelled_unit (u : UInt16) : (unit u).Spelled (unit u).text := by
  have lt (k : Nat) : u.toNat / Nat.pow 16 k % 16 < 16 := Nat.mod_lt _ (by decide)
  have value : 16 * (16 * (16 * (u.toNat / Nat.pow 16 3 % 16) + u.toNat / Nat.pow 16 2 % 16) +
      u.toNat / Nat.pow 16 1 % 16) + u.toNat / Nat.pow 16 0 % 16 = u.toNat := by
    have hu := u.toNat_lt
    simp only [Nat.pow_eq, Nat.reducePow]
    omega
  have h := Spelled.digits (Text.Hex.digit?_digitChar (lt 3)) (Text.Hex.digit?_digitChar (lt 2))
    (Text.Hex.digit?_digitChar (lt 1)) (Text.Hex.digit?_digitChar (lt 0))
  rwa [value, UInt16.ofNat_toNat] at h

/-- What is written for a legible part of a string is one of its spellings. -/
theorem Piece.spelled_text {p : Piece} (hp : p.Legible) : p.Spelled p.text := by
  cases p with
  | unit u => exact spelled_unit u
  | char c =>
    -- the characters with a short escape, and those that stand for themselves
    by_cases hescape : c ∈ ['"', '\\', '\x08', '\x0c', '\n', '\r', '\t']
    · simp only [List.mem_cons, List.not_mem_nil, or_false] at hescape
      rcases hescape with rfl | rfl | rfl | rfl | rfl | rfl | rfl <;>
        exact .short (by decide)
    · simp only [List.mem_cons, List.not_mem_nil, or_false, not_or] at hescape
      obtain ⟨h₁, h₂, h₃, h₄, h₅, h₆, h₇⟩ := hescape
      have hlarge : 0x20 ≤ c.toNat := by
        simpa [Piece.Legible, h₃, h₄, h₅, h₆, h₇] using hp
      have htext : (char c).text = [c] := by
        simp [Piece.text, Nat.not_lt.mpr hlarge, *]
      rw [htext]
      exact .plain hlarge h₁ h₂

theorem step_unit {c : Char} {d : Nat} (hd : Text.Hex.digit? c = some d) (read : List Piece)
    (value missing : Nat) :
    step (.unit read value (missing + 2)) c =
      some ([], .unit read (16 * value + d) (missing + 1)) := by
  simp [step, hd]

theorem step_unit_last {c : Char} {d : Nat} (hd : Text.Hex.digit? c = some d) (read : List Piece)
    (value : Nat) :
    step (.unit read value 1) c =
      some ([], .string (.unit (UInt16.ofNat (16 * value + d)) :: read)) := by
  simp only [step, hd, Nat.le_refl, if_true]

/-- **One part of a string is read back**, however it is spelled. -/
theorem Piece.Spelled.scanFrom {p : Piece} {w : List Char} (h : p.Spelled w) (read : List Piece)
    (rest : List Char) :
    scanFrom (.string read) (w ++ rest) = scanFrom (.string (p :: read)) rest := by
  cases h with
  | @plain c hlarge hquote hbackslash =>
    have hstep : step (.string read) c = some ([], .string (.char c :: read)) := by
      simp [step, hquote, hbackslash, Nat.not_lt.mpr hlarge]
    exact scanFrom_of_step hstep rest
  | @short letter c h =>
    have hstep : step (.escape read) letter = some ([], .string (.char c :: read)) := by
      have all : ∀ e ∈ shortEscapes, e.1 ≠ 'u' ∧ escaped? e.1 = some e.2 := by decide
      simp [step, all _ h]
    exact (scanFrom_of_step rfl _).trans (scanFrom_of_step hstep rest)
  | digits h₃ h₂ h₁ h₀ =>
    simp only [List.cons_append, List.nil_append]
    rw [scanFrom_of_step (m := .string read) (n := .escape read) rfl,
      scanFrom_of_step (m := .escape read) (n := .unit read 0 4) rfl,
      scanFrom_of_step (step_unit h₃ read 0 2), scanFrom_of_step (step_unit h₂ read _ 1),
      scanFrom_of_step (step_unit h₁ read _ 0), scanFrom_of_step (step_unit_last h₀ read _),
      Nat.mul_zero, Nat.zero_add]

/-- A string is read up to its closing quote. -/
theorem scanFrom_parts {ps : List Piece} {parts : List (List Char)}
    (h : List.Forall₂ Piece.Spelled ps parts) (read : List Piece) (rest : List Char) :
    scanFrom (.string read) (parts.flatten ++ '"' :: rest) =
      (scanFrom .between rest).map (.string (read.reverse ++ ps) :: ·) := by
  induction h generalizing read with
  | nil => simp [scanFrom, step]
  | cons hp hps ih =>
    rw [List.flatten_cons, List.append_assoc, hp.scanFrom, ih, List.reverse_cons, List.append_assoc]
    rfl

/-! ## Numbers -/

/-- The text does not begin with a character that could go on with a complete number. -/
def Ends (rest : List Char) : Prop :=
  ∀ c ∈ rest.head?, c.isDigit = false ∧ c ≠ '.' ∧ c ≠ 'e' ∧ c ≠ 'E'

theorem ends_cons {c : Char} (hc : c.isDigit = false ∧ c ≠ '.' ∧ c ≠ 'e' ∧ c ≠ 'E')
    (cs : List Char) : Ends (c :: cs) := by
  rintro d ⟨⟩
  exact hc

theorem next?_eq_none {p : NumberPart} {c : Char} {rest : List Char} (hp : p.mayEnd = true)
    (hrest : Ends (c :: rest)) : p.next? c = none := by
  obtain ⟨hdigit, hpoint, he, hE⟩ := hrest c rfl
  cases p <;> simp_all [NumberPart.next?, NumberPart.mayEnd]

/-- **A number is read up to a character that cannot go on with it.** -/
theorem scanFrom_number {p q : NumberPart} {cs rest : List Char} (hrun : p.run? cs = some q)
    (hq : q.mayEnd = true) (hrest : Ends rest) (read : List Char) :
    scanFrom (.number p read) (cs ++ rest) =
      (scanFrom .between rest).map (.number (read.reverse ++ cs) :: ·) := by
  induction cs generalizing p read with
  | nil =>
    obtain rfl : p = q := Option.some.inj hrun
    cases rest with
    | nil => simp [scanFrom, finish, hq]
    | cons c rest =>
      -- the character ends the number and is looked at again, as between tokens
      simp only [List.nil_append, List.append_nil, scanFrom, step, next?_eq_none hq hrest, hq,
        if_true]
      cases start c <;> simp [Function.comp_def]
  | cons c cs ih =>
    obtain ⟨r, hr, hrun⟩ := Option.bind_eq_some_iff.mp hrun
    have hstep : step (.number p read) c = some ([], .number r (c :: read)) := by
      simp only [step, hr]
    rw [List.cons_append, scanFrom_of_step hstep, ih hrun, List.reverse_cons, List.append_assoc]
    rfl

/-! ## Tokens -/

/-- A word is read to its end. -/
theorem scanFrom_word_next (token : Token) (next : Char) (letters rest : List Char) :
    scanFrom (.word token next letters) (next :: letters ++ rest) =
      (scanFrom .between rest).map (token :: ·) := by
  induction letters generalizing next with
  | nil => simp [scanFrom, step]
  | cons l letters ih =>
    have hstep :
        step (.word token next (l :: letters)) next = some ([], .word token l letters) := by
      simp [step]
    rw [List.cons_append, scanFrom_of_step hstep, ih]

theorem scanFrom_word {first next : Char} {letters : List Char} {token : Token}
    (hstart : start first = some ([], .word token next letters)) (rest : List Char) :
    scanFrom .between (first :: next :: letters ++ rest) =
      (scanFrom .between rest).map (token :: ·) := by
  have hstep : step .between first = some ([], .word token next letters) := hstart
  exact (scanFrom_of_step hstep _).trans (scanFrom_word_next token next letters rest)

namespace Token

/-- The token may be written so. A number keeps its text, and a string may spell its parts in every
way; the others have one spelling each. -/
def Spelled (t : Token) (w : List Char) : Prop :=
  match t with
  | number text => Numeral text ∧ w = text
  | string ps => ∃ parts, List.Forall₂ Piece.Spelled ps parts ∧ w = '"' :: (parts.flatten ++ ['"'])
  | t => w = t.text

/-- The token is read back from its own text. -/
def Legible : Token → Prop
  | number text => Numeral text
  | string pieces => ∀ p ∈ pieces, p.Legible
  | _ => True

/-- What is written for a legible token is one of its spellings. -/
theorem spelled_text {t : Token} (ht : t.Legible) : t.Spelled t.text := by
  cases t with
  | number text => exact ⟨ht, rfl⟩
  | string ps =>
    refine ⟨ps.map Piece.text, List.forall₂_map_right_iff.mpr ?_, by rw [← List.flatMap_def]; rfl⟩
    exact List.forall₂_same.mpr fun p hp => Piece.spelled_text (ht p hp)
  | _ => rfl

/-- The token is a number. -/
def isNumber : Token → Bool
  | number _ => true
  | _ => false

/-- The two tokens may be written one behind the other. -/
def Apart (t u : Token) : Prop := ¬(t.isNumber = true ∧ u.isNumber = true)

/-- A token that is no number puts an end to a number. -/
theorem ends_spelled {t : Token} (ht : t.isNumber = false) {w : List Char} (hw : t.Spelled w)
    (rest : List Char) : Ends (w ++ rest) := by
  cases t with
  | number text => simp [isNumber] at ht
  | string ps =>
    obtain ⟨parts, -, rfl⟩ := hw
    exact ends_cons (by decide) _
  | bool b =>
    obtain rfl : w = (bool b).text := hw
    cases b <;> exact ends_cons (by decide) _
  | _ =>
    obtain rfl := hw
    exact ends_cons (by decide) _

/-- **One token is read back**, however it is spelled. What follows a number must not go on with
it. -/
theorem scanFrom_spelled {t : Token} {w rest : List Char} (hw : t.Spelled w)
    (hrest : t.isNumber = true → Ends rest) :
    scanFrom .between (w ++ rest) = (scanFrom .between rest).map (t :: ·) := by
  cases t with
  | number text =>
    obtain ⟨hnumeral, rfl⟩ := hw
    obtain ⟨c, cs, p, q, rfl, hstart, hrun, hq⟩ := isNumber_of_numeral hnumeral
    have hstep : step .between c = some ([], .number p [c]) := hstart
    exact (scanFrom_of_step hstep _).trans (scanFrom_number hrun hq (hrest rfl) [c])
  | string ps =>
    obtain ⟨parts, hparts, rfl⟩ := hw
    have hstep : step .between '"' = some ([], .string []) := rfl
    simpa using (scanFrom_of_step hstep _).trans (scanFrom_parts hparts [] rest)
  | null =>
    obtain rfl := hw
    exact scanFrom_word rfl rest
  | bool b =>
    obtain rfl := hw
    cases b with
    | true => exact scanFrom_word rfl rest
    | false => exact scanFrom_word rfl rest
  | _ =>
    obtain rfl := hw
    simp [text, scanFrom, step, start, isSpace]

end Token

/-! ## Texts -/

/-- Characters that may stand between tokens. -/
def Blanks (cs : List Char) : Prop := ∀ c ∈ cs, c ∈ [' ', '\t', '\n', '\r']

/-- The text writes these tokens, with blanks around them. -/
inductive Spells : List Token → List Char → Prop where
  | nil {blanks : List Char} (hblanks : Blanks blanks) : Spells [] blanks
  | cons {t : Token} {ts : List Token} {blanks w rest : List Char} (hblanks : Blanks blanks)
    (hw : t.Spelled w) (hrest : Spells ts rest) : Spells (t :: ts) (blanks ++ (w ++ rest))

/-- Legible tokens may be written one behind the other. -/
theorem spells_text {ts : List Token} (hts : ∀ t ∈ ts, t.Legible) :
    Spells ts (ts.flatMap Token.text) := by
  have hblanks : Blanks [] := fun c hc => absurd hc List.not_mem_nil
  induction ts with
  | nil => exact .nil hblanks
  | cons t ts ih =>
    obtain ⟨ht, hts⟩ := List.forall_mem_cons.mp hts
    exact .cons hblanks (Token.spelled_text ht) (ih hts)

/-- Blanks complete no token. -/
theorem scanFrom_blanks {blanks : List Char} (h : Blanks blanks) (rest : List Char) :
    scanFrom .between (blanks ++ rest) = scanFrom .between rest := by
  have all : ∀ c ∈ [' ', '\t', '\n', '\r'], step .between c = some ([], .between) := by
    intro c hc
    fin_cases hc <;> rfl
  induction blanks with
  | nil => rfl
  | cons c blanks ih =>
    obtain ⟨hc, hblanks⟩ := List.forall_mem_cons.mp h
    rw [List.cons_append, scanFrom_of_step (all c hc), ih hblanks]

/-- The tokens do not begin with a number. -/
def NoNumberFirst (ts : List Token) : Prop := ∀ t ∈ ts.head?, t.isNumber = false

/-- Blanks put an end to a number, as does a token that is none. -/
theorem Spells.ends {ts : List Token} {s : List Char} (h : Spells ts s) (hts : NoNumberFirst ts) :
    Ends s := by
  have all : ∀ c ∈ [' ', '\t', '\n', '\r'], c.isDigit = false ∧ c ≠ '.' ∧ c ≠ 'e' ∧ c ≠ 'E' := by
    intro c hc
    fin_cases hc <;> decide
  cases h with
  | nil hblanks => exact fun c hc => all c (hblanks c (List.mem_of_mem_head? hc))
  | @cons t ts blanks w rest hblanks hw _ =>
    cases blanks with
    | nil => exact Token.ends_spelled (hts t rfl) hw rest
    | cons c blanks => exact ends_cons (all c (hblanks c List.mem_cons_self)) _

/-- **The tokens that a text spells are scanned**, if no two numbers stand side by side. -/
theorem scan_of_spells {ts : List Token} {s : List Char} (h : Spells ts s)
    (hapart : ts.IsChain Token.Apart) : scan s = some ts := by
  unfold scan
  induction h with
  | @nil blanks hblanks =>
    have hscan := scanFrom_blanks hblanks []
    rwa [List.append_nil] at hscan
  | @cons t ts blanks w rest hblanks hw hrest ih =>
    -- what follows a number begins with a blank or with a token that is none, or is the end
    obtain ⟨hnext, hapart⟩ := List.isChain_cons.mp hapart
    have hends : t.isNumber = true → Ends rest := fun ht =>
      hrest.ends fun u hu => Bool.eq_false_iff.mpr fun hnumber => hnext u hu ⟨ht, hnumber⟩
    rw [scanFrom_blanks hblanks, Token.scanFrom_spelled hw hends, ih hapart]
    rfl

end BufferPlan.Json
