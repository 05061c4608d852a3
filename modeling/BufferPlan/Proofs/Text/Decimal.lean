import BufferPlan.Proofs.Json.Number
import Mathlib.Data.List.Induction
import Mathlib.Data.Nat.Digits.Defs

/-!
# The counts that texts denote

Digits denote a number by their places: the last one counts ones, the one before it tens. Both ways
in which counts are read are told by this, apart from the loops that read them.

* `Denotes`: one digit or more denote a number. `Counts` allows a plus sign in front of them, and
  `Canonical` no leading zero but for zero itself.
* **`signed?_eq_some_iff`**, **`canonical?_eq_some_iff`**: what the two readers take, and as what.
* `Canonical.eq_toDigits`: a number has one canonical decimal, the one that is written for it.
* `word32?_eq_some_iff`, `word64?_eq_some_iff`: the words that numbers have.
-/

namespace BufferPlan.Text.Decimal

open Json (Digits Whole)

/-- Digits, one or more, that denote `n` by their places. -/
structure Denotes (ds : List Char) (n : Nat) : Prop where
  digits : Digits ds
  places : Nat.ofDigits 10 (ds.reverse.map fun d => d.toNat - '0'.toNat) = n

/-- A plus sign or none, and then digits that denote `n`, with any number of zeros in front. -/
def Counts (text : List Char) (n : Nat) : Prop :=
  ∃ sign ds, text = sign ++ ds ∧ sign ∈ [[], ['+']] ∧ Denotes ds n

/-- Digits that denote `n` and begin with a zero only if they are a zero alone. -/
structure Canonical (text : List Char) (n : Nat) : Prop where
  denotes : Denotes text n
  whole : Whole text

variable {text ds : List Char} {m n : Nat}

/-! ## The value of digits -/

theorem isDigits_iff : isDigits ds = true ↔ Digits ds := by
  simp [isDigits, Digits]

theorem value_concat (ds : List Char) (d : Char) :
    value (ds ++ [d]) = 10 * value ds + (d.toNat - '0'.toNat) := by
  rw [value, Nat.ofDigitChars_append, Nat.ofDigitChars_cons, Nat.ofDigitChars_nil, value]

/-- The value that is computed from the left is the one by places. -/
theorem value_eq_ofDigits (ds : List Char) :
    value ds = Nat.ofDigits 10 (ds.reverse.map fun d => d.toNat - '0'.toNat) := by
  induction ds using List.reverseRecOn with
  | nil => rfl
  | append_singleton ds d ih =>
    rw [value_concat, ih, List.reverse_concat, List.map_cons, Nat.ofDigits_cons, Nat.add_comm]

theorem denotes_iff : Denotes ds n ↔ isDigits ds = true ∧ value ds = n := by
  rw [isDigits_iff, value_eq_ofDigits]
  exact ⟨fun h => ⟨h.digits, h.places⟩, fun h => ⟨h.1, h.2⟩⟩

/-! ## Signed decimals -/

theorem dropPlus_eq_iff (hds : Digits ds) :
    dropPlus text = ds ↔ ∃ sign, text = sign ++ ds ∧ sign ∈ [[], ['+']] := by
  constructor
  · rintro rfl
    unfold dropPlus
    split
    · exact ⟨['+'], rfl, by decide⟩
    · exact ⟨[], rfl, by decide⟩
  · rintro ⟨sign, rfl, hsign⟩
    fin_cases hsign
    · exact dropPlus_of_isDigits (isDigits_iff.mpr hds)
    · rfl

/-- **A signed decimal is read as the count it denotes**, and nothing else is read. -/
theorem signed?_eq_some_iff : signed? text = some n ↔ Counts text n := by
  have hread : signed? text = some n ↔ Denotes (dropPlus text) n := by
    rw [signed?, denotes_iff]
    split <;> simp_all
  rw [hread]
  constructor
  · intro h
    obtain ⟨sign, htext, hsign⟩ := (dropPlus_eq_iff h.digits).mp rfl
    exact ⟨sign, dropPlus text, htext, hsign, h⟩
  · rintro ⟨sign, ds, htext, hsign, h⟩
    rwa [(dropPlus_eq_iff h.digits).mpr ⟨sign, htext, hsign⟩]

/-- A text denotes one count at most. -/
theorem Counts.eq (hm : Counts text m) (hn : Counts text n) : m = n :=
  Option.some.inj ((signed?_eq_some_iff.mpr hm).symm.trans (signed?_eq_some_iff.mpr hn))

/-! ## Canonical decimals -/

theorem whole_iff (hds : Digits ds) : Whole ds ↔ ds.head? ≠ some '0' ∨ ds.length = 1 := by
  unfold Whole
  constructor
  · rintro (rfl | ⟨-, h⟩)
    · exact Or.inr rfl
    · exact Or.inl h
  · rintro (h | h)
    · exact Or.inr ⟨hds, h⟩
    · obtain ⟨d, rfl⟩ := List.length_eq_one_iff.mp h
      by_cases hd : d = '0'
      · exact Or.inl (by rw [hd])
      · exact Or.inr ⟨hds, by simpa using hd⟩

/-- **A canonical decimal is read as the number it denotes**, and nothing else is read. -/
theorem canonical?_eq_some_iff : canonical? text = some n ↔ Canonical text n := by
  constructor
  · intro h
    obtain ⟨hcond, hvalue⟩ := Option.ite_none_right_eq_some.mp h
    rw [Bool.and_eq_true, Bool.or_eq_true, bne_iff_ne, beq_iff_eq] at hcond
    have hdenotes := denotes_iff.mpr ⟨hcond.1, Option.some.inj hvalue⟩
    exact ⟨hdenotes, (whole_iff hdenotes.digits).mpr hcond.2⟩
  · rintro ⟨hdenotes, hwhole⟩
    have hlead := (whole_iff hdenotes.digits).mp hwhole
    obtain ⟨hdigits, hvalue⟩ := denotes_iff.mp hdenotes
    refine Option.ite_none_right_eq_some.mpr ⟨?_, congrArg some hvalue⟩
    rw [Bool.and_eq_true, Bool.or_eq_true, bne_iff_ne, beq_iff_eq]
    exact ⟨hdigits, hlead⟩

theorem canonical_toDigits (n : Nat) : Canonical (Nat.toDigits 10 n) n :=
  canonical?_eq_some_iff.mp (canonical?_toDigits n)

theorem digitChar_of_isDigit {d : Char} (hd : d.isDigit = true) :
    d.toNat - '0'.toNat < 10 ∧ Nat.digitChar (d.toNat - '0'.toNat) = d := by
  obtain ⟨hle, hge⟩ : 48 ≤ d.toNat ∧ d.toNat ≤ 57 := Char.isDigit_iff_toNat.mp hd
  have hlt : d.toNat - 48 < 10 := by omega
  refine ⟨hlt, Char.toNat_inj.mp ?_⟩
  exact (Nat.toNat_digitChar_of_lt_ten hlt).trans (Nat.add_sub_of_le hle)

/-- Digits that do not begin with a zero are the decimal that is written for their value. -/
theorem toDigits_value (hds : Digits ds) (hlead : ds.head? ≠ some '0') :
    0 < value ds ∧ Nat.toDigits 10 (value ds) = ds := by
  obtain ⟨hne, hall⟩ := hds
  induction ds using List.reverseRecOn with
  | nil => exact absurd rfl hne
  | append_singleton ds d ih =>
    obtain ⟨hall, hd⟩ := List.forall_mem_append.mp hall
    obtain ⟨hlt, hchar⟩ := digitChar_of_isDigit (hd d (List.mem_singleton_self d))
    rw [value_concat]
    generalize d.toNat - '0'.toNat = k at hlt hchar
    cases ds with
    | nil =>
      -- one digit, which is not zero
      have hk : k ≠ 0 := by
        rintro rfl
        exact hlead (congrArg some hchar.symm)
      refine ⟨by omega, ?_⟩
      rw [show 10 * value [] + k = k from Nat.zero_add k, Nat.toDigits_of_lt_base hlt, hchar]
      rfl
    | cons c cs =>
      obtain ⟨hpos, hdigits⟩ := ih hlead (List.cons_ne_nil c cs) hall
      refine ⟨by omega, ?_⟩
      rw [← Nat.toDigits_append_toDigits (by decide) hpos hlt, hdigits,
        Nat.toDigits_of_lt_base hlt, hchar]

/-- **A number has one canonical decimal**: the one that is written for it. -/
theorem Canonical.eq_toDigits (h : Canonical text n) : text = Nat.toDigits 10 n := by
  obtain ⟨-, hvalue⟩ := denotes_iff.mp h.denotes
  rw [← hvalue]
  rcases h.whole with rfl | ⟨hdigits, hlead⟩
  · rfl
  · exact (toDigits_value hdigits hlead).2.symm

/-! ## Words -/

theorem word32?_eq_some_iff {w : UInt32} : word32? n = some w ↔ w.toNat = n := by
  constructor
  · intro h
    obtain ⟨hlt, hw⟩ := Option.dite_none_right_eq_some.mp h
    rw [← Option.some.inj hw, UInt32.toNat_ofNatLT]
  · rintro rfl
    exact word32?_toNat w

theorem word64?_eq_some_iff {w : UInt64} : word64? n = some w ↔ w.toNat = n := by
  constructor
  · intro h
    obtain ⟨hlt, hw⟩ := Option.dite_none_right_eq_some.mp h
    rw [← Option.some.inj hw, UInt64.toNat_ofNatLT]
  · rintro rfl
    exact word64?_toNat w

end BufferPlan.Text.Decimal
