/-!
# Sets of code points as ranges

A property of characters is given by closed ranges of code points, **ascending and apart**, with the
order as a field. So the search for a code point stops at the first range that begins above it, and
finds it all the same if it lies in any.

* **`Ranges.has_iff`**: the search finds exactly the members.
* `Ranges.not_mem_of_apart`: where no range reaches, there is no member.
-/

namespace BufferPlan.Text

namespace Ranges

/-- The ranges are ascending and apart, none of them is empty, and they begin at `n` or above. -/
def orderedFrom (n : Nat) : List (Nat × Nat) → Bool
  | [] => true
  | (lo, hi) :: rest => n ≤ lo && lo ≤ hi && orderedFrom (hi + 1) rest

/-- The code point lies in one of the ranges, none of which is looked at behind those above it. -/
def search (n : Nat) : List (Nat × Nat) → Bool
  | [] => false
  | (lo, hi) :: rest => if n < lo then false else n ≤ hi || search n rest

end Ranges

/-- A set of code points. -/
structure Ranges where
  /-- Each range with its first and its last code point. -/
  ranges : List (Nat × Nat)
  ordered : Ranges.orderedFrom 0 ranges = true

namespace Ranges

/-- The code point is in the set. -/
def has (s : Ranges) (n : Nat) : Bool := search n s.ranges

instance : Membership Nat Ranges := ⟨fun s n => ∃ r ∈ s.ranges, r.1 ≤ n ∧ n ≤ r.2⟩

variable {s : Ranges} {l : List (Nat × Nat)} {lo hi m n : Nat}

theorem le_of_mem (h : orderedFrom n l = true) {r : Nat × Nat} (hr : r ∈ l) : n ≤ r.1 := by
  induction l generalizing n with
  | nil => exact absurd hr List.not_mem_nil
  | cons x rest ih =>
    obtain ⟨lo, hi⟩ := x
    simp only [orderedFrom, Bool.and_eq_true, decide_eq_true_eq] at h
    obtain ⟨⟨hn, hlo⟩, hrest⟩ := h
    rcases List.mem_cons.mp hr with rfl | hr
    · exact hn
    · have := ih hrest hr
      omega

theorem search_eq_true_iff (h : orderedFrom n l = true) :
    search m l = true ↔ ∃ r ∈ l, r.1 ≤ m ∧ m ≤ r.2 := by
  induction l generalizing n with
  | nil => simp [search]
  | cons x rest ih =>
    obtain ⟨lo, hi⟩ := x
    simp only [orderedFrom, Bool.and_eq_true, decide_eq_true_eq] at h
    obtain ⟨⟨_, hlo⟩, hrest⟩ := h
    simp only [search]
    split
    · rename_i hm
      refine ⟨fun h => absurd h (by decide), ?_⟩
      rintro ⟨r, hr, hle, _⟩
      rcases List.mem_cons.mp hr with rfl | hr
      · exact absurd hle (Nat.not_le.mpr hm)
      · have := le_of_mem hrest hr
        omega
    · rename_i hm
      rw [Bool.or_eq_true, decide_eq_true_eq, ih hrest]
      constructor
      · rintro (hle | ⟨r, hr, hb⟩)
        · exact ⟨(lo, hi), List.mem_cons_self, Nat.not_lt.mp hm, hle⟩
        · exact ⟨r, List.mem_cons_of_mem _ hr, hb⟩
      · rintro ⟨r, hr, hb⟩
        rcases List.mem_cons.mp hr with rfl | hr
        · exact Or.inl hb.2
        · exact Or.inr ⟨r, hr, hb⟩

/-- **The search finds exactly the members.** -/
theorem has_iff : s.has n = true ↔ n ∈ s := search_eq_true_iff s.ordered

/-- No range reaches between the two code points. -/
def Apart (s : Ranges) (lo hi : Nat) : Bool := s.ranges.all fun r => r.2 < lo || hi < r.1

theorem not_mem_of_apart (h : s.Apart lo hi = true) (hlo : lo ≤ n) (hhi : n ≤ hi) : n ∉ s := by
  rintro ⟨r, hr, hfirst, hlast⟩
  have hr := List.all_eq_true.mp h r hr
  rw [Bool.or_eq_true, decide_eq_true_eq, decide_eq_true_eq] at hr
  omega

end Ranges

/-- A character of ASCII that is neither a blank nor a control character. -/
def Graphic (c : Char) : Prop := 0x21 ≤ c.toNat ∧ c.toNat ≤ 0x7E

instance (c : Char) : Decidable (Graphic c) := inferInstanceAs (Decidable (_ ∧ _))

theorem graphic_of_isDigit {c : Char} (h : c.isDigit = true) : Graphic c := by
  have hrange := Char.isDigit_iff_toNat.mp h
  exact ⟨Nat.le_trans (by decide) hrange.1, Nat.le_trans hrange.2 (by decide)⟩

end BufferPlan.Text
