import BufferPlan.Proofs.Exact
import BufferPlan.Proofs.Records

/-!
# Bounds are ordered wherever they come from

No floor of a pool is above its ceiling, whatever the pool is and whoever asks for its bounds. A
text may say a ceiling below the floor, and a gate may be laid out by hand with sizes that
contradict each other; in both cases the ceiling is lifted.

* `Bounds.Produced`: all the ways to come by bounds.
* `Bounds.produced_iff`: they lead to all bounds that are ordered, and to no others.
* `Bounds.readText_of_says`: what is read from a text, however it says a floor and a ceiling.
* `Gate.Layout.pinned_add_floor`: what is pinned and the floor of the floating pool make up what is
  required. `Gate.Layout.fits_layout`: the layouts of the library can be asked for the pool.
* `Partition.isUnbounded_bounds_iff`: which pools have no ceiling.
* **`bounds_are_ordered`**: all of it.
-/

namespace BufferPlan

open Json (Value)

/-! ## Reading bounds -/

namespace Bounds

/-- The value says the floor and the ceiling of a pool: in an object, with the members in any order
and members of other names among them, or in an array. -/
inductive Says (lo : UInt64) : Option UInt64 → Value → Prop where
  | both {hi? : Option UInt64} {v : Value} {named : Json.Fields} (hv : v.Lists named)
      (h : (Value.known fieldNames named).Perm
        [("min", .ofWord lo), ("max", .orNull .ofWord hi?)]) : Says lo hi? v
  | floorAlone {v : Value} {named : Json.Fields} (hv : v.Lists named)
      (h : Value.known fieldNames named = [("min", .ofWord lo)]) : Says lo none v
  | array (hi? : Option UInt64) : Says lo hi? (.array [.ofWord lo, .orNull .ofWord hi?])

variable {lo : UInt64} {hi? : Option UInt64} {v : Value} {s : String}

theorem of_eq (lo : UInt64) (hi? : Option UInt64) : of lo hi? = ⟨lo, hi?.map (max · lo)⟩ := by
  cases hi? with
  | none => rfl
  | some hi => rfl

/-- However a floor and a ceiling are said, the value is read as the bounds of the two. -/
theorem ofValue?_of_says (h : Says lo hi? v) : ofValue? v = some (of lo hi?) := by
  have hrecord : ofValue? (.record [("min", .ofWord lo), ("max", .orNull .ofWord hi?)]) =
      some (of lo hi?) := by
    rw [ofValue?, Value.fields?_record fieldNames rfl (by decide)]
    simp
  cases h with
  | both hv h =>
    rw [← hrecord]
    exact anyLayout.rearranged _ _ _ _ hv (Value.lists_record _) h
  | floorAlone hv h =>
    rw [ofValue?, Value.fields?_of_lists hv, h]
    simp
  | array =>
    rw [← hrecord]
    exact anyLayout.array _ _ (Nat.le_refl 2) (Nat.le_refl 2) (Value.lists_record _)

/-- **A text of such a value is read as the floor and the ceiling**, lifted if it is below. -/
theorem readText_of_says (h : Says lo hi? v) (hs : v.WrittenAs s) :
    readText ofValue? s = some ⟨lo, hi?.map (max · lo)⟩ := by
  rw [anyLayout.text v s hs, ofValue?_of_says h, of_eq]

end Bounds

/-! ## The floating pool of any layout -/

namespace Gate.Layout

variable (l : Layout) (n : Count)

/-- The buffers that the channels pin, by a layout that need not be one of the library. -/
def pinned : Nat := n.val.toNat * l.exclusivePerChannel.toNat

/-- The pinned buffers of all channels can be counted in a word. -/
def Fits : Prop := pinned l n < 2 ^ 64

variable {l n}

theorem toNat_pinned (h : Fits l n) : (n.word * l.exclusivePerChannel).toNat = pinned l n := by
  rw [UInt64.toNat_mul, Partition.Exact.toNat_word]
  exact Nat.mod_eq_of_lt h

/-- **What is pinned and the floor of the floating pool** make up the required buffers, or exceed
them with nothing required to float. -/
theorem pinned_add_floor (h : Fits l n) :
    pinned l n + (l.floatingPool n).floor.toNat = max l.required.toNat (pinned l n) := by
  have hfloor : (l.floatingPool n).floor.toNat = l.required.toNat - pinned l n := by
    show (Saturating.sub l.required (n.word * l.exclusivePerChannel)).toNat = _
    rw [Saturating.toNat_sub, toNat_pinned h]
  omega

/-- The layouts of the library fit. -/
theorem fits_layout (kind : Kind) (n : Count) (t : Tuning) : Fits (layout kind n t) n := by
  have hpinned : pinned (layout kind n t) n = Exact.pinned kind n t := by
    rw [pinned, Exact.toNat_exclusivePerChannel, Exact.pinned]
  rw [Fits, hpinned]
  exact Exact.lt_of_mem_steps kind n t (by simp [Exact.steps])

end Gate.Layout

/-! ## The pool of a result partition -/

namespace Partition

/-- **A pool has no ceiling** iff its kind is not bounded and it is not sorted. -/
theorem isUnbounded_bounds_iff (kind : Kind) (n : Count) (t : Tuning) :
    (bounds kind n t).isUnbounded = true ↔
      kind.isBounded = false ∧ isSorted kind n t = false := by
  unfold bounds
  dsimp only
  by_cases hbounded : kind.isBounded = true
  · rw [if_pos hbounded]
    simp [hbounded, Bounds.isUnbounded, Bounds.between]
  · rw [if_neg hbounded]
    by_cases hsorted : isSorted kind n t = true
    · rw [if_pos hsorted]
      simp [hsorted, Bounds.isUnbounded, Bounds.between]
    · rw [if_neg hsorted]
      simp [hbounded, hsorted, Bounds.isUnbounded, Bounds.atLeast]

end Partition

/-! ## All bounds -/

namespace Bounds

/-- The bounds that there are, by the ways to come by them. -/
inductive Produced : Bounds → Prop where
  /-- With a ceiling. -/
  | between (lo hi : UInt64) : Produced (between lo hi)
  /-- Without one. -/
  | atLeast (lo : UInt64) : Produced (atLeast lo)
  /-- Read from a text. -/
  | text {s : String} {b : Bounds} (h : readText ofValue? s = some b) : Produced b
  /-- The pool of a result partition. -/
  | partition (kind : Kind) (n : Count) (t : Tuning) : Produced (Partition.bounds kind n t)
  /-- A floating pool that is sized from the floating count alone. -/
  | floating (count : UInt32) : Produced (Gate.floatingBounds count)
  /-- The floating pool of a layout, which may have been laid out by hand. -/
  | floatingPool (l : Gate.Layout) (n : Count) (h : l.Fits n) : Produced (l.floatingPool n)

variable {b : Bounds}

/-- Bounds can be made if they are ordered, with their own floor and ceiling. -/
theorem mem_made_iff : b ∈ made ↔ b.Ordered := by
  constructor
  · intro h
    rw [← of_eq_self h]
    exact ordered_of b.floor b.ceiling?
  · intro h
    obtain ⟨lo, hi?⟩ := b
    cases hi? with
    | none => exact Or.inr ⟨lo, rfl⟩
    | some hi =>
      have hle : lo.toNat ≤ hi.toNat := UInt64.le_iff_toNat_le.mp (h hi rfl)
      have hmax : max hi lo = hi := by
        rw [← UInt64.toNat_inj, toNat_max]
        exact Nat.max_eq_left hle
      exact Or.inl ⟨lo, hi, by rw [between, hmax]⟩

/-- **The bounds that there are, are the ordered ones.** -/
theorem produced_iff : Produced b ↔ b.Ordered := by
  rw [← mem_made_iff]
  constructor
  · intro h
    cases h with
    | between lo hi => exact of_mem_made lo (some hi)
    | atLeast lo => exact of_mem_made lo none
    | text h =>
      -- whatever the text is, the reader ends by making the bounds
      obtain ⟨v, -, hv⟩ := Option.bind_eq_some_iff.mp h
      exact lawful.mem_of_read v b hv
    | partition kind n t => exact mem_made_iff.mpr (Partition.ordered_bounds kind n t)
    | floating count => exact of_mem_made 1 (some count.toUInt64)
    | floatingPool l n => exact of_mem_made (l.requiredFloating n) (some l.floating)
  · rintro (⟨lo, hi, rfl⟩ | ⟨lo, rfl⟩)
    · exact .between lo hi
    · exact .atLeast lo

end Bounds

/-- **Bounds are ordered, wherever they come from**: made of any two words, read from any text, laid
out for any result partition or any gate, or for a gate by any layout whose pinned buffers can be
counted in a word, as they always can for the layouts of the library. The bounds of any floor and
ceiling are read from every text that says the two, one below the other or not. The pinned buffers
and the floor of the floating pool make up the required buffers, if those are not exceeded already.
A result partition has a pool without a ceiling iff its kind is not bounded and the pool not
sorted. -/
theorem bounds_are_ordered :
    (∀ b, Bounds.Produced b ↔ ∀ c ∈ b.ceiling?, b.floor ≤ c) ∧
    (∀ lo hi? v s, Bounds.Says lo hi? v → v.WrittenAs s →
      readText Bounds.ofValue? s = some ⟨lo, hi?.map (max · lo)⟩) ∧
    (∀ (l : Gate.Layout) n, l.Fits n →
      l.pinned n + (l.floatingPool n).floor.toNat = max l.required.toNat (l.pinned n)) ∧
    (∀ kind n t, (Gate.layout kind n t).Fits n) ∧
    ∀ kind n t, (Partition.bounds kind n t).isUnbounded = true ↔
      kind.isBounded = false ∧ Partition.isSorted kind n t = false :=
  ⟨fun _ => Bounds.produced_iff, fun _ _ _ _ => Bounds.readText_of_says,
    fun _ _ => Gate.Layout.pinned_add_floor, Gate.Layout.fits_layout,
    Partition.isUnbounded_bounds_iff⟩

/-- Three channels pin twelve of twenty required buffers, by a layout that lets three more float. -/
example : (⟨4, 20, 3, 23⟩ : Gate.Layout).floatingPool ⟨3, by decide⟩ = ⟨8, some 8⟩ := by
  decide

end BufferPlan
