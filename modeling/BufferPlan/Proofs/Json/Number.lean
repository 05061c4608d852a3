import BufferPlan.Json.Scan
import BufferPlan.Text.Decimal
import Mathlib.Tactic.FinCases

/-!
# Numbers as they may be written

The grammar of a number: a minus or none, a whole part without a leading zero, and then a fraction
and an exponent, each of which may be missing. The scanner runs through the parts of a number one
character at a time and takes every number of the grammar.

* `Numeral`: the grammar.
* `NumberPart.run?`: what the scanner makes of the characters of a number.
* **`isNumber_of_numeral`**: the scanner takes a number of the grammar for one number.
* `numeral_toDigits`: the decimal of a natural number is one.
-/

namespace BufferPlan.Json

/-! ## The grammar -/

/-- One or more digits. -/
def Digits (ds : List Char) : Prop := ds ≠ [] ∧ ∀ d ∈ ds, d.isDigit = true

/-- What stands before the point: a zero alone, or digits that do not begin with one. -/
def Whole (ds : List Char) : Prop := ds = ['0'] ∨ Digits ds ∧ ds.head? ≠ some '0'

/-- A point and digits, or nothing. -/
def Fraction (cs : List Char) : Prop := cs = [] ∨ ∃ ds, cs = '.' :: ds ∧ Digits ds

/-- A mark, a sign or none, and digits, or nothing. -/
def Exponent (cs : List Char) : Prop :=
  cs = [] ∨ ∃ mark sign ds, cs = mark :: (sign ++ ds) ∧ mark ∈ ['e', 'E'] ∧
    sign ∈ [[], ['+'], ['-']] ∧ Digits ds

/-- The text is a number. -/
def Numeral (text : List Char) : Prop :=
  ∃ minus whole fraction exponent, text = minus ++ (whole ++ (fraction ++ exponent)) ∧
    minus ∈ [[], ['-']] ∧ Whole whole ∧ Fraction fraction ∧ Exponent exponent

/-- The decimal of a natural number is a number. -/
theorem numeral_toDigits (n : Nat) : Numeral (Nat.toDigits 10 n) := by
  refine ⟨[], Nat.toDigits 10 n, [], [], by simp, by simp, ?_, Or.inl rfl, Or.inl rfl⟩
  by_cases hn : n = 0
  · subst hn
    exact Or.inl rfl
  · have hdigits : ∀ d ∈ Nat.toDigits 10 n, d.isDigit = true := fun d hd =>
      Nat.isDigit_of_mem_toDigits (by decide) (by decide) hd
    exact Or.inr ⟨⟨Nat.toDigits_ne_nil, hdigits⟩, Text.Decimal.head?_toDigits_ne hn⟩

/-! ## The run through the parts -/

namespace NumberPart

/-- The part a number is in after some more characters, if it goes on with all of them. -/
def run? (p : NumberPart) : List Char → Option NumberPart
  | [] => some p
  | c :: cs => (p.next? c).bind fun q => q.run? cs

theorem run?_append (p : NumberPart) (cs ds : List Char) :
    p.run? (cs ++ ds) = (p.run? cs).bind fun q => q.run? ds := by
  induction cs generalizing p with
  | nil => rfl
  | cons c cs ih =>
    rw [List.cons_append, run?, run?, Option.bind_assoc]
    exact congrArg (p.next? c).bind (funext fun q => ih q)

/-- A part that goes on with digits does so to their end. -/
theorem run?_of_stays {p : NumberPart} (hp : ∀ c : Char, c.isDigit = true → p.next? c = some p)
    {ds : List Char} (hds : ∀ d ∈ ds, d.isDigit = true) : p.run? ds = some p := by
  induction ds with
  | nil => rfl
  | cons d ds ih =>
    obtain ⟨hd, hds⟩ := List.forall_mem_cons.mp hds
    rw [run?, hp d hd, Option.bind_some, ih hds]

/-- Digits lead to the part that goes on with digits. -/
theorem run?_digits {p q : NumberPart} (hp : ∀ c : Char, c.isDigit = true → p.next? c = some q)
    (hq : ∀ c : Char, c.isDigit = true → q.next? c = some q) {ds : List Char} (hds : Digits ds) :
    p.run? ds = some q := by
  obtain ⟨hne, hall⟩ := hds
  obtain ⟨d, ds, rfl⟩ := List.exists_cons_of_ne_nil hne
  obtain ⟨hd, hds⟩ := List.forall_mem_cons.mp hall
  rw [run?, hp d hd, Option.bind_some, run?_of_stays hq hds]

theorem next?_digits {c : Char} (hc : c.isDigit = true) : digits.next? c = some digits := by
  simp [next?, hc]

theorem next?_fraction {c : Char} (hc : c.isDigit = true) : fraction.next? c = some fraction := by
  simp [next?, hc]

theorem next?_exponent {c : Char} (hc : c.isDigit = true) : exponent.next? c = some exponent := by
  simp [next?, hc]

/-- An exponent is run through from every part at which the number could have ended before it. -/
theorem exists_run?_exponent {p : NumberPart} (hp : p ∈ [zero, digits, fraction]) {cs : List Char}
    (hcs : Exponent cs) : ∃ q, p.run? cs = some q ∧ q.mayEnd = true := by
  rcases hcs with rfl | ⟨c, signs, ds, rfl, hc, hsigns, hds⟩
  · refine ⟨p, rfl, ?_⟩
    fin_cases hp <;> rfl
  · have hmark : p.next? c = some mark := by
      fin_cases hp <;> fin_cases hc <;> rfl
    have hrun : mark.run? (signs ++ ds) = some exponent := by
      rw [run?_append]
      fin_cases hsigns <;>
        exact run?_digits (fun d hd => by simp [next?, hd]) (fun _ => next?_exponent) hds
    exact ⟨exponent, by rw [run?, hmark, Option.bind_some, hrun], rfl⟩

/-- A fraction is run through from the whole part, and an exponent may follow it. -/
theorem exists_run?_fraction {p : NumberPart} (hp : p ∈ [zero, digits]) {cs : List Char}
    (hcs : Fraction cs) : ∃ q ∈ [zero, digits, fraction], p.run? cs = some q := by
  rcases hcs with rfl | ⟨ds, rfl, hds⟩
  · refine ⟨p, ?_, rfl⟩
    fin_cases hp <;> decide
  · have hpoint : p.next? '.' = some point := by
      fin_cases hp <;> rfl
    have hrun : point.run? ds = some fraction :=
      run?_digits (fun d hd => by simp [next?, hd]) (fun _ => next?_fraction) hds
    exact ⟨fraction, by decide, by rw [run?, hpoint, Option.bind_some, hrun]⟩

end NumberPart

/-! ## Numbers are scanned -/

/-- A text that the scanner takes for one number. -/
def IsNumber (text : List Char) : Prop :=
  ∃ c cs p q, text = c :: cs ∧ start c = some ([], .number p [c]) ∧ p.run? cs = some q ∧
    q.mayEnd = true

theorem start_digit {c : Char} (hc : c.isDigit = true) (hzero : c ≠ '0') :
    start c = some ([], .number .digits [c]) := by
  have other : ∀ d : Char, d.isDigit = false → c ≠ d := by
    rintro d hd rfl
    exact absurd hc (by simp [hd])
  simp [start, isSpace, other, hc, hzero]

/-- The whole part begins a number, with a minus before it or without. -/
theorem Whole.exists_run? {ds : List Char} (hds : Whole ds) :
    ∃ c cs, ds = c :: cs ∧ ∃ p, start c = some ([], .number p [c]) ∧
      NumberPart.minus.next? c = some p ∧ ∃ q ∈ [.zero, .digits], p.run? cs = some q := by
  rcases hds with rfl | ⟨⟨hne, hall⟩, hzero⟩
  · exact ⟨'0', [], rfl, .zero, rfl, rfl, .zero, by decide, rfl⟩
  · obtain ⟨c, cs, rfl⟩ := List.exists_cons_of_ne_nil hne
    obtain ⟨hc, hcs⟩ := List.forall_mem_cons.mp hall
    have hne : c ≠ '0' := fun h => hzero (congrArg some h)
    refine ⟨c, cs, rfl, .digits, start_digit hc hne, ?_, .digits, by decide, ?_⟩
    · simp [NumberPart.next?, hc, hne]
    · exact NumberPart.run?_of_stays (fun _ => NumberPart.next?_digits) hcs

/-- **The scanner takes a number of the grammar for one number.** -/
theorem isNumber_of_numeral {text : List Char} (h : Numeral text) : IsNumber text := by
  obtain ⟨signs, whole, fraction, exponent, rfl, hsigns, hwhole, hfraction, hexponent⟩ := h
  obtain ⟨c, cs, rfl, p, hstart, hminus, q, hq, hrun⟩ := hwhole.exists_run?
  obtain ⟨r, hr, hfraction⟩ := NumberPart.exists_run?_fraction hq hfraction
  obtain ⟨s, hexponent, hs⟩ := NumberPart.exists_run?_exponent hr hexponent
  have hall : p.run? (cs ++ (fraction ++ exponent)) = some s := by
    rw [NumberPart.run?_append, hrun, Option.bind_some, NumberPart.run?_append, hfraction,
      Option.bind_some, hexponent]
  fin_cases hsigns
  · exact ⟨c, cs ++ (fraction ++ exponent), p, s, rfl, hstart, hall, hs⟩
  · refine ⟨'-', c :: cs ++ (fraction ++ exponent), .minus, s, rfl, rfl, ?_, hs⟩
    rw [List.cons_append, NumberPart.run?, hminus, Option.bind_some, hall]

end BufferPlan.Json
