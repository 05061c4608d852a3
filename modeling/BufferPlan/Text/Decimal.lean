/-!
# Decimal counts in text

Two ways of writing a natural number are read, each with a largest value.

* A **canonical** decimal is what `Nat.toDigits` writes: digits with no sign and no leading zero
  but for zero itself. Numbers in documents, and the ids that key their maps, are written so.
* A **signed** decimal may begin with one plus sign and with any number of zeros. The values of
  options are read so.
-/

namespace BufferPlan.Text.Decimal

/-- One digit or more. -/
def isDigits (s : List Char) : Bool := !s.isEmpty && s.all Char.isDigit

/-- The number that a text of digits denotes. -/
def value (s : List Char) : Nat := Nat.ofDigitChars 10 s 0

/-- The number of a canonical decimal. -/
def canonical? (s : List Char) : Option Nat :=
  if isDigits s && (s.head? != some '0' || s.length == 1) then some (value s) else none

/-- The text behind one plus sign, or the whole text if it does not begin with one. -/
def dropPlus : List Char → List Char
  | '+' :: s => s
  | s => s

/-- The number of a signed decimal. -/
def signed? (s : List Char) : Option Nat :=
  if isDigits (dropPlus s) then some (value (dropPlus s)) else none

/-- The canonical decimal of a 64-bit count. -/
def ofWord (n : UInt64) : String := String.ofList (Nat.toDigits 10 n.toNat)

/-- The 32-bit word of that value. -/
def word32? (n : Nat) : Option UInt32 := if h : n < UInt32.size then some (UInt32.ofNatLT n h) else none

/-- The 64-bit word of that value. -/
def word64? (n : Nat) : Option UInt64 := if h : n < UInt64.size then some (UInt64.ofNatLT n h) else none

/-- What is written is read back. -/
theorem value_toDigits (n : Nat) : value (Nat.toDigits 10 n) = n := Nat.ofDigitChars_ten_toDigits

theorem isDigits_toDigits (n : Nat) : isDigits (Nat.toDigits 10 n) = true := by
  simp only [isDigits, Bool.and_eq_true, Bool.not_eq_true', List.isEmpty_eq_false_iff,
    List.all_eq_true]
  exact ⟨Nat.toDigits_ne_nil,
    fun c hc => Nat.isDigit_of_mem_toDigits (by decide) (by decide) hc⟩

/-- The canonical decimal of a positive number has no leading zero. -/
theorem head?_toDigits_ne {n : Nat} (hn : n ≠ 0) : (Nat.toDigits 10 n).head? ≠ some '0' := by
  induction n using Nat.strongRecOn with
  | ind n ih =>
    rw [Nat.toDigits_eq_if (by decide)]
    split
    · rename_i hlt
      have digits : ∀ d < 10, d ≠ 0 → [Nat.digitChar d].head? ≠ some '0' := by decide
      exact digits n hlt hn
    · have hhead := ih (n / 10) (by omega) (by omega)
      obtain ⟨c, cs, hcs⟩ :=
        List.exists_cons_of_ne_nil (Nat.toDigits_ne_nil (n := n / 10) (b := 10))
      rw [hcs] at hhead ⊢
      exact hhead

/-- **A canonical decimal is read as the number it was written for.** -/
theorem canonical?_toDigits (n : Nat) : canonical? (Nat.toDigits 10 n) = some n := by
  have hlead : ((Nat.toDigits 10 n).head? != some '0' || (Nat.toDigits 10 n).length == 1) := by
    by_cases hn : n = 0
    · subst hn
      decide
    · simpa using Or.inl (head?_toDigits_ne hn)
  rw [canonical?, isDigits_toDigits, hlead, value_toDigits]
  rfl

theorem dropPlus_of_isDigits {s : List Char} (h : isDigits s = true) : dropPlus s = s := by
  unfold dropPlus
  split
  · exact absurd h (by simp [isDigits])
  · rfl

/-- A canonical decimal is a signed one as well. -/
theorem signed?_toDigits (n : Nat) : signed? (Nat.toDigits 10 n) = some n := by
  rw [signed?, dropPlus_of_isDigits (isDigits_toDigits n), isDigits_toDigits, value_toDigits]
  rfl

theorem word32?_toNat (n : UInt32) : word32? n.toNat = some n := by
  rw [word32?, dif_pos n.toNat_lt, UInt32.ofNatLT_toNat]

theorem word64?_toNat (n : UInt64) : word64? n.toNat = some n := by
  rw [word64?, dif_pos n.toNat_lt, UInt64.ofNatLT_toNat]

end BufferPlan.Text.Decimal
