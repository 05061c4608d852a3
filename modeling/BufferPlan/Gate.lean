import BufferPlan.Bounds
import BufferPlan.Count
import BufferPlan.Kind.Basic
import BufferPlan.Saturating
import BufferPlan.Tuning.Basic

/-!
# Input gates

An input gate reads one result partition through its channels. Each channel may pin **exclusive**
buffers to itself, and the channels share a pool of **floating** buffers. `Gate.layout` sizes both:

* the gate **requires** one buffer more than all exclusive ones, but never more than a threshold:
  the configured cap, or 1000 for a blocking gate without one;
* its **target** is all exclusive buffers and the floating ones, within the cap and never below
  what is required;
* channels pin their buffers only if the required ones leave at least one to float; otherwise all
  buffers float.

The sizes are plain 64-bit sums and products: with 32-bit counts and tuning values none wraps.

What a gate announces is a matter of policy (`Gate.Policy`); the standing policy announces the
target.
-/

namespace BufferPlan.Gate

/-- The threshold of a blocking gate without a cap. -/
def blockingThreshold : UInt64 := 1000

/-- The threshold of a live gate without a cap: the largest word, so in effect none. -/
def liveThreshold : UInt64 := 18446744073709551615

/-- The most buffers a gate requires. -/
def threshold (kind : Kind) (t : Tuning) : UInt64 :=
  match t.gateCap with
  | some cap => cap.toUInt64
  | none => if kind.isLive then liveThreshold else blockingThreshold

/-- The exclusive buffers of a channel, as configured. -/
def channelBuffers (configured : UInt32) : UInt32 := configured

/-- The bounds of a floating pool that is sized from the floating count alone. One buffer is always
kept, so that a channel can recover its state. -/
def floatingBounds (floating : UInt32) : Bounds := Bounds.between 1 floating.toUInt64

/-! ## The layout -/

/-- The buffers of one gate. -/
structure Layout where
  /-- The buffers pinned to each channel. -/
  exclusivePerChannel : UInt64
  /-- The buffers without which the gate cannot run. -/
  required : UInt64
  /-- The most buffers that float. -/
  floating : UInt64
  /-- Pinned and floating buffers together, at full size. -/
  target : UInt64
deriving DecidableEq, Repr

namespace Layout

/-- The part of the required buffers that floats. -/
def requiredFloating (l : Layout) (channels : Count) : UInt64 :=
  Saturating.sub l.required (channels.word * l.exclusivePerChannel)

/-- The bounds of the floating pool. -/
def floatingPool (l : Layout) (channels : Count) : Bounds :=
  Bounds.between (l.requiredFloating channels) l.floating

end Layout

/-- The layout of a gate of a kind with the given channels. -/
def layout (kind : Kind) (channels : Count) (t : Tuning) : Layout :=
  let perChannel := (channelBuffers t.buffersPerChannel).toUInt64
  let allExclusive := channels.word * perChannel
  let required := min (threshold kind t) (allExclusive + 1)
  let full := allExclusive + t.floatingPerGate.toUInt64
  let target := match t.gateCap with
    | some cap => max required (min full cap.toUInt64)
    | none => max required full
  let exclusive := if required ≤ allExclusive then 0 else perChannel
  { exclusivePerChannel := exclusive
    required := required
    floating := target - channels.word * exclusive
    target := target }

/-! ## Policies -/

/-- What one gate announces, from its kind, its channels and the tuning values. -/
abbrev Policy := Kind → Count → Tuning → UInt64

/-- The standing policy announces the target of the layout. -/
def Policy.standing : Policy := fun kind channels t => (layout kind channels t).target

end BufferPlan.Gate
