/-!
# Hexadecimal digits

`fixed w n` writes the last `w` hexadecimal digits of `n`, most significant first, lower case and
padded with zeros. `digit?` reads one digit of either case.
-/

namespace BufferPlan.Text.Hex

/-- The last `w` digits of `n`, most significant first. -/
def fixed : Nat → Nat → List Char
  | 0, _ => []
  | w + 1, n => Nat.digitChar (n / Nat.pow 16 w % 16) :: fixed w n

/-- The value of a digit of either case. -/
def digit? (c : Char) : Option Nat :=
  if '0' ≤ c ∧ c ≤ '9' then some (c.toNat - '0'.toNat)
  else if 'a' ≤ c ∧ c ≤ 'f' then some (c.toNat - 'a'.toNat + 10)
  else if 'A' ≤ c ∧ c ≤ 'F' then some (c.toNat - 'A'.toNat + 10)
  else none

theorem length_fixed (w n : Nat) : (fixed w n).length = w := by
  induction w with
  | zero => rfl
  | succ w ih => simp [fixed, ih]

theorem digit?_digitChar {d : Nat} (h : d < 16) : digit? (Nat.digitChar d) = some d := by
  have all : ∀ e < 16, digit? (Nat.digitChar e) = some e := by decide
  exact all d h

end BufferPlan.Text.Hex
