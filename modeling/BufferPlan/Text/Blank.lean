import BufferPlan.Text.Ranges

/-!
# Blanks and trimming

The blanks are the 25 characters with the Unicode property White_Space. Values of options and
names of kinds are read after the blanks at both ends are dropped.

* `isBlank_iff`: the blanks are the members of the table.
* `isBlank_of_graphic`: no graphic character of ASCII is one.
* `trim_eq_self`: a text without blanks, such as a decimal, is left as it is.
-/

namespace BufferPlan.Text

/-- The blanks by code point. -/
def blanks : Ranges :=
  ⟨[(0x09, 0x0D), (0x20, 0x20), (0x85, 0x85), (0xA0, 0xA0), (0x1680, 0x1680), (0x2000, 0x200A),
    (0x2028, 0x2029), (0x202F, 0x202F), (0x205F, 0x205F), (0x3000, 0x3000)], by decide⟩

/-- A character with the property White_Space. -/
def isBlank (c : Char) : Bool := blanks.has c.toNat

/-- The text without the blanks at its ends. -/
def trim (s : List Char) : List Char :=
  ((s.dropWhile isBlank).reverse.dropWhile isBlank).reverse

/-- The text without the blanks at its ends. -/
def trimmed (s : String) : String := String.ofList (trim s.toList)

theorem isBlank_iff {c : Char} : isBlank c = true ↔ c.toNat ∈ blanks := Ranges.has_iff

theorem isBlank_of_graphic {c : Char} (h : Graphic c) : isBlank c = false := by
  have hapart : blanks.Apart 0x21 0x7E = true := by decide
  rw [Bool.eq_false_iff, Ne, isBlank_iff]
  exact Ranges.not_mem_of_apart hapart h.1 h.2

theorem dropWhile_isBlank_eq_self {s : List Char} (h : ∀ c ∈ s, isBlank c = false) :
    s.dropWhile isBlank = s := by
  cases s with
  | nil => rfl
  | cons c s => exact List.dropWhile_cons_of_neg (by simp [h c List.mem_cons_self])

/-- **A text without blanks is left as it is.** -/
theorem trim_eq_self {s : List Char} (h : ∀ c ∈ s, isBlank c = false) : trim s = s := by
  have hrev : ∀ c ∈ s.reverse, isBlank c = false := fun c hc => h c (List.mem_reverse.mp hc)
  rw [trim, dropWhile_isBlank_eq_self h, dropWhile_isBlank_eq_self hrev, List.reverse_reverse]

end BufferPlan.Text
