import BufferPlan.Proofs.Exact

/-!
# The pool of a gate follows its layout

The pool of an input edge is worked out beside the layout of its gate and could come apart from it
in four places. It decides by a comparison of its own whether channels pin their buffers; its floor
is a difference that is held at zero; its ceiling is lifted if it lies below the floor; and a last
maximum lifts what is held to what the gate requires. None of them shows: the decision is that of
the layout, the difference does not fall below zero, and neither maximum lifts anything. That holds
for channels that have no buffers to pin and under a cap of zero as well.

* `InputEdge.exclusive_pool`: the pool pins what the layout pins.
* `InputEdge.exclusive_add_floor`: what it pins and its floor are the required buffers.
* `InputEdge.ceiling?_pool`: its ceiling is the floating buffers of the layout.
* `InputEdge.announced_standing`: the target, as often as the edge is reused, is its announcement.
* **`InputEdge.pool_follows_layout`**: all of it, for every edge and tuning value.
-/

namespace BufferPlan

/-- The pool is what a layout gives for gates of the channels, one for each reuse. -/
structure Pool.Follows (pool : Pool) (layout : Gate.Layout) (channels : Count) (reuse : UInt32) :
    Prop where
  exclusive : pool.exclusive = channels.word * layout.exclusivePerChannel
  /-- The product does not wrap. -/
  exclusiveExact :
    pool.exclusive.toNat = channels.val.toNat * layout.exclusivePerChannel.toNat
  /-- The floor is what the gate requires beside the pinned buffers. -/
  required : pool.exclusive.toNat + pool.bounds.floor.toNat = layout.required.toNat
  ceiling : pool.bounds.ceiling? = some layout.floating
  /-- So the ceiling was not lifted to the floor. -/
  notLifted : pool.bounds.floor ≤ layout.floating
  target : pool.exclusive.toNat + layout.floating.toNat = layout.target.toNat
  /-- The required buffers do not change what a full pool holds. -/
  held : max (pool.exclusive + layout.floating) layout.required = pool.exclusive + layout.floating
  peak : ∃ peak, pool.peak? = some peak ∧
    peak.toNat = min (2 ^ 64 - 1) (layout.target.toNat * reuse.toNat)

namespace InputEdge

variable {t : Tuning} (e : InputEdge)

/-- The pool decides again what is pinned, and decides as the layout does. -/
theorem exclusive_pool :
    (e.pool t).exclusive =
      e.channels.word * (Gate.layout e.kind e.channels t).exclusivePerChannel := by
  apply UInt64.toNat_inj.mp
  rw [e.toNat_exclusive_pool, Gate.toNat_pinned]

theorem toNat_exclusive_pool_eq_mul :
    (e.pool t).exclusive.toNat =
      e.channels.val.toNat * (Gate.layout e.kind e.channels t).exclusivePerChannel.toNat := by
  rw [e.toNat_exclusive_pool, Gate.Exact.gate_pinned_eq, Gate.Exact.toNat_exclusivePerChannel,
    Gate.Exact.pinned]

/-- **What is pinned and the floor are what the gate requires.** -/
theorem exclusive_add_floor :
    (e.pool t).exclusive.toNat + (e.pool t).bounds.floor.toNat =
      (Gate.layout e.kind e.channels t).required.toNat := by
  have hfloor : (e.pool t).bounds.floor.toNat =
      (Gate.layout e.kind e.channels t).required.toNat - Gate.pinned e.kind e.channels t :=
    Gate.toNat_requiredFloating e.kind e.channels t
  have hle := Gate.pinned_le_required e.kind e.channels t
  rw [e.toNat_exclusive_pool, hfloor]
  omega

/-- The ceiling is taken as it is. -/
theorem ceiling?_pool :
    (e.pool t).bounds.ceiling? = some (Gate.layout e.kind e.channels t).floating := by
  have hbounds : (e.pool t).bounds =
      (Gate.layout e.kind e.channels t).floatingPool e.channels := rfl
  rw [hbounds, Gate.floatingPool_eq]

/-- By the standing policy an edge announces the target of its gates, clamped once. -/
theorem announced_standing :
    (e.announced .standing t).toNat =
      min (2 ^ 64 - 1) ((Gate.layout e.kind e.channels t).target.toNat * e.reuse.toNat) := by
  rw [announced, Saturating.toNat_mul, UInt32.toNat_toUInt64, Saturating.top_eq, Nat.min_comm]
  rfl

/-- **The pool of a gate follows its layout**, and what it holds at its peak is what the edge
announces by the standing policy. -/
theorem pool_follows_layout (t : Tuning) :
    (e.pool t).Follows (Gate.layout e.kind e.channels t) e.channels e.reuse ∧
      (e.pool t).peak? = some (e.announced .standing t) := by
  have hfloor := e.exclusive_add_floor (t := t)
  have htarget := Gate.required_le_target e.kind e.channels t
  have hsum := e.toNat_exclusive_add_floating (t := t)
  refine ⟨⟨e.exclusive_pool, e.toNat_exclusive_pool_eq_mul, hfloor, e.ceiling?_pool, ?_, hsum, ?_,
    _, e.peak?_pool, e.announced_standing⟩, e.peak?_pool⟩
  · rw [UInt64.le_iff_toNat_le]
    omega
  · rw [e.max_exclusive_add_floating, e.exclusive_add_floating]

/-- Under a cap of zero the gate is empty, and so is its pool. -/
example : InputEdge.pool { gateCap := some 0 } ⟨⟨7⟩, .blocking, ⟨3, by decide⟩, 2⟩ =
    ⟨⟨7⟩, .input, ⟨0, some 0⟩, 0, some 0⟩ := by
  decide

end InputEdge

end BufferPlan
