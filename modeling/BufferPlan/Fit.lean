import BufferPlan.Announcement
import BufferPlan.Footprint

/-!
# Does the announcement cover the pools?

An announcement is right only if it is never smaller than what the pools of the task can hold at
their peaks. `Task.fit` plans a task and sets the two numbers side by side; it reports a shortfall,
which a policy that announces less than the standing one can cause.
-/

namespace BufferPlan

/-- The announcement of a task beside the footprint of its pools. -/
structure Fit where
  announced : UInt64
  /-- The footprint, or `none` if some pool can grow without limit. -/
  footprint? : Option UInt64
deriving DecidableEq, Repr

/-- The announcement covers every pool at its peak. -/
def Fit.fits (r : Fit) : Bool :=
  match r.footprint? with
  | some footprint => footprint ≤ r.announced
  | none => false

/-- The announcement falls short of the footprint. -/
def Fit.isShort (r : Fit) : Bool :=
  match r.footprint? with
  | some footprint => r.announced < footprint
  | none => true

/-- Plans a task and compares its announcement with its pools. -/
def Task.fit (policy : Gate.Policy) (t : Tuning) (task : Task) : Traced Fit := do
  let announced ← task.announcement policy t
  let pools ← Traced.ofExcept (task.pools t)
  let r : Fit := ⟨announced, footprint? pools⟩
  if r.isShort then Traced.report (.shortfall r.announced r.footprint?)
  return r

end BufferPlan
