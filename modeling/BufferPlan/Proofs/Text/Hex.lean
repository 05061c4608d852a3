import BufferPlan.Edge.Id
import Mathlib.Data.Nat.Digits.Defs

/-!
# Hexadecimal digits read back

Hexadecimal digits denote a number by their places, as decimal ones do. Both texts that are written
in them denote what they were written for: the shortest one, and the one of fixed width as far as
its width goes. Texts of one width are ordered as the numbers that they denote, since the digits are
ordered as their values and the first place in which two texts differ decides.

* `Hex.number`: what digits denote.
* **`Hex.number_toDigits`**, **`Hex.number_fixed`**: what is written is read back.
* `Hex.toDigits_inj`, `EdgeId.hex_injective`: so no two code points and no two ids are written
  alike.
* **`Hex.fixed_lt_fixed_iff`**, `EdgeId.hex_lt_hex_iff`: texts of one width are ordered as the
  numbers, so those of ids as the ids.
-/

namespace BufferPlan

namespace Text.Hex

/-- The number that hexadecimal digits denote by their places. -/
def number (ds : List Char) : Nat := Nat.ofDigits 16 (ds.reverse.map fun d => (digit? d).getD 0)

theorem number_concat {d : Nat} (hd : d < 16) (ds : List Char) :
    number (ds ++ [Nat.digitChar d]) = 16 * number ds + d := by
  rw [number, List.reverse_concat, List.map_cons, digit?_digitChar hd, Option.getD_some,
    Nat.ofDigits_cons, ← number, Nat.add_comm]

theorem number_cons {d : Nat} (hd : d < 16) (ds : List Char) :
    number (Nat.digitChar d :: ds) = number ds + 16 ^ ds.length * d := by
  rw [number, List.reverse_cons, List.map_append, Nat.ofDigits_append, ← number, List.length_map,
    List.length_reverse, List.map_singleton, digit?_digitChar hd, Option.getD_some,
    Nat.ofDigits_singleton]

/-- **The shortest text of a number denotes it.** -/
theorem number_toDigits (n : Nat) : number (Nat.toDigits 16 n) = n := by
  induction n using Nat.strongRecOn with
  | ind n ih =>
    rw [Nat.toDigits_eq_if (by decide)]
    split
    · rename_i hlt
      have h := number_concat hlt []
      rwa [List.nil_append, show number [] = 0 from rfl, Nat.mul_zero, Nat.zero_add] at h
    · rw [number_concat (Nat.mod_lt n (by decide)), ih (n / 16) (by omega)]
      omega

/-- **The text of fixed width denotes a number as far as its width goes.** -/
theorem number_fixed (w n : Nat) : number (fixed w n) = n % 16 ^ w := by
  induction w with
  | zero => rw [Nat.pow_zero, Nat.mod_one]; rfl
  | succ w ih =>
    rw [fixed, number_cons (Nat.mod_lt _ (by decide)), ih, length_fixed, Nat.pow_eq,
      Nat.mod_pow_succ]

theorem toDigits_inj {m n : Nat} : Nat.toDigits 16 m = Nat.toDigits 16 n ↔ m = n := by
  refine ⟨fun h => ?_, fun h => h ▸ rfl⟩
  rw [← number_toDigits m, h, number_toDigits]

/-- What is written in digits holds nothing but digits. -/
theorem mem_toDigits {c : Char} {n : Nat} (h : c ∈ Nat.toDigits 16 n) :
    ∃ d < 16, c = Nat.digitChar d := by
  induction n using Nat.strongRecOn with
  | ind n ih =>
    rw [Nat.toDigits_eq_if (by decide)] at h
    split at h
    · rename_i hlt
      exact ⟨n, hlt, List.mem_singleton.mp h⟩
    · rcases List.mem_append.mp h with h | h
      · exact ih (n / 16) (by omega) h
      · exact ⟨n % 16, Nat.mod_lt n (by decide), List.mem_singleton.mp h⟩

/-! ## The order of texts of one width -/

/-- The digits that are written. -/
def lowerDigits : List Char := "0123456789abcdef".toList

theorem mem_fixed {c : Char} {w n : Nat} (h : c ∈ fixed w n) : c ∈ lowerDigits := by
  have all : ∀ d < 16, Nat.digitChar d ∈ lowerDigits := by decide
  induction w with
  | zero => cases h
  | succ w ih =>
    rcases List.mem_cons.mp h with rfl | h
    · exact all _ (Nat.mod_lt _ (by decide))
    · exact ih h

theorem digitChar_lt_digitChar_iff {d e : Nat} (hd : d < 16) (he : e < 16) :
    Nat.digitChar d < Nat.digitChar e ↔ d < e := by
  have all : ∀ d < 16, ∀ e < 16, Nat.digitChar d < Nat.digitChar e ↔ d < e := by decide
  exact all d hd e he

theorem digitChar_inj {d e : Nat} (hd : d < 16) (he : e < 16) :
    Nat.digitChar d = Nat.digitChar e ↔ d = e := by
  refine ⟨fun h => ?_, fun h => h ▸ rfl⟩
  exact Option.some.inj ((digit?_digitChar hd).symm.trans (h ▸ digit?_digitChar he))

/-- The higher place decides, and the lower ones where the higher ones are equal. -/
theorem add_mul_lt_add_mul_iff {p a b d e : Nat} (ha : a < p) (hb : b < p) :
    a + p * d < b + p * e ↔ d < e ∨ d = e ∧ a < b := by
  rcases Nat.lt_trichotomy d e with h | rfl | h
  · have hle : p * (d + 1) ≤ p * e := Nat.mul_le_mul_left p h
    rw [Nat.mul_succ] at hle
    omega
  · omega
  · have hle : p * (e + 1) ≤ p * d := Nat.mul_le_mul_left p h
    rw [Nat.mul_succ] at hle
    omega

/-- **Texts of one width are ordered as the numbers that they denote.** -/
theorem fixed_lt_fixed_iff {w m n : Nat} : fixed w m < fixed w n ↔ m % 16 ^ w < n % 16 ^ w := by
  induction w with
  | zero => simp [fixed, Nat.mod_one]
  | succ w ih =>
    have hpos : 0 < 16 ^ w := Nat.pow_pos (by decide)
    have hm : m / 16 ^ w % 16 < 16 := Nat.mod_lt _ (by decide)
    have hn : n / 16 ^ w % 16 < 16 := Nat.mod_lt _ (by decide)
    rw [fixed, fixed, List.cons_lt_cons_iff, ih, Nat.pow_eq, digitChar_lt_digitChar_iff hm hn,
      digitChar_inj hm hn, Nat.mod_pow_succ, Nat.mod_pow_succ,
      add_mul_lt_add_mul_iff (Nat.mod_lt m hpos) (Nat.mod_lt n hpos)]

end Text.Hex

namespace EdgeId

theorem toList_hex (id : EdgeId) : id.hex.toList = Text.Hex.fixed 16 id.raw.toNat :=
  String.toList_ofList

theorem length_hex (id : EdgeId) : id.hex.toList.length = 16 := by
  rw [toList_hex, Text.Hex.length_fixed]

/-- The digits of an id denote it. -/
theorem number_hex (id : EdgeId) : Text.Hex.number id.hex.toList = id.raw.toNat := by
  rw [toList_hex, Text.Hex.number_fixed, Nat.mod_eq_of_lt]
  exact id.raw.toNat_lt

/-- **No two ids are written alike.** -/
theorem hex_injective : Function.Injective hex := by
  intro a b h
  rw [eq_iff, ← number_hex, h, number_hex]

/-- **The texts of ids are ordered as the ids.** -/
theorem hex_lt_hex_iff {a b : EdgeId} : a.hex < b.hex ↔ a < b := by
  have ha : a.raw.toNat < 16 ^ 16 := a.raw.toNat_lt
  have hb : b.raw.toNat < 16 ^ 16 := b.raw.toNat_lt
  have htexts : a.hex < b.hex ↔ a.hex.toList < b.hex.toList := Iff.rfl
  rw [htexts, toList_hex, toList_hex, Text.Hex.fixed_lt_fixed_iff, Nat.mod_eq_of_lt ha,
    Nat.mod_eq_of_lt hb, lt_iff]

end EdgeId

end BufferPlan
