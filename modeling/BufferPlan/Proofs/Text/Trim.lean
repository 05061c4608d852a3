import BufferPlan.Text.Blank
import Mathlib.Data.List.DropRight

/-!
# What trimming leaves

A trimmed text is told without the loops that drop characters: the text it was cut out of has only
blanks in front of it and behind it, and it neither begins nor ends with one. There is exactly one
such part of every text.

* `Trims`: one text is the other without the blanks at its ends.
* **`trim_eq_iff`**: trimming leaves that text.
-/

namespace BufferPlan.Text

/-- The text `t` is `s` without the blanks at its ends. -/
structure Trims (s t : List Char) : Prop where
  between : ∃ before after, s = before ++ (t ++ after) ∧ (∀ c ∈ before, isBlank c = true) ∧
    ∀ c ∈ after, isBlank c = true
  first : ∀ c ∈ t.head?, isBlank c = false
  last : ∀ c ∈ t.getLast?, isBlank c = false

variable {s t before after : List Char}

theorem trim_eq (s : List Char) : trim s = (s.dropWhile isBlank).rdropWhile isBlank := rfl

/-- What is left of a text stands between blanks. -/
theorem trims_trim (s : List Char) : Trims s (trim s) where
  between := by
    refine ⟨s.takeWhile isBlank, (s.dropWhile isBlank).rtakeWhile isBlank, ?_,
      fun c => List.mem_takeWhile_imp, fun c => List.mem_rtakeWhile_imp⟩
    rw [trim_eq, List.rdropWhile_append_rtakeWhile, List.takeWhile_append_dropWhile]
  first := by
    intro c hc
    -- the first character that is left is the first one that is no blank
    obtain ⟨rest, hrest⟩ : trim s <+: s.dropWhile isBlank :=
      List.rdropWhile_prefix (p := isBlank) _
    have hhead : (s.dropWhile isBlank).head? = some c := by
      rw [← hrest, List.head?_append, Option.mem_def.mp hc, Option.some_or]
    have hblank := List.head?_dropWhile_not isBlank s
    rw [hhead] at hblank
    exact hblank
  last := by
    intro c hc
    have hne : trim s ≠ [] := by
      rintro h
      rw [h] at hc
      cases hc
    have hlast := List.rdropWhile_last_not isBlank (s.dropWhile isBlank) hne
    rw [List.getLast?_eq_some_getLast hne] at hc
    obtain rfl := Option.some.inj hc
    exact Bool.eq_false_iff.mpr hlast

/-- Only one part of a text stands between blanks. -/
theorem Trims.eq_trim (h : Trims s t) : trim s = t := by
  obtain ⟨before, after, rfl, hbefore, hafter⟩ := h.between
  rw [trim_eq, List.dropWhile_append_of_pos hbefore]
  cases t with
  | nil =>
    rw [List.nil_append, List.dropWhile_eq_nil_iff.mpr hafter, List.rdropWhile_nil]
  | cons c t =>
    have hc : ¬isBlank c = true := by simp [h.first c rfl]
    have hlast : ∀ hne : c :: t ≠ [], ¬isBlank ((c :: t).getLast hne) = true := fun hne => by
      simp [h.last _ (List.getLast?_eq_some_getLast hne)]
    rw [List.cons_append, List.dropWhile_cons_of_neg hc, ← List.cons_append, List.rdropWhile,
      List.reverse_append, List.dropWhile_append_of_pos fun a ha =>
        hafter a (List.mem_reverse.mp ha)]
    exact List.rdropWhile_eq_self_iff.mpr hlast

/-- **Trimming leaves what stands between the blanks.** -/
theorem trim_eq_iff : trim s = t ↔ Trims s t := by
  constructor
  · rintro rfl
    exact trims_trim s
  · exact Trims.eq_trim

end BufferPlan.Text
