import BufferPlan.Count
import BufferPlan.PlanError
import BufferPlan.Text.Decimal

/-!
# Traced results

Planning reports what it does as a sequence of events. A `Traced` result is the events and how the
run ended; running one after another joins the events and stops at the first error, keeping what
was reported before it. There is one definition of every planning step, and both its events and its
result are read off it.
-/

namespace BufferPlan

/-! ## Events -/

/-- How much an event matters. -/
inductive Level where
  | debug
  | warn
  | error
deriving DecidableEq, Repr

/-- The name of a level. -/
def Level.name : Level → String
  | debug => "DEBUG"
  | warn => "WARN"
  | error => "ERROR"

/-- What happened during planning. -/
inductive Event where
  /-- The gates of an input edge were planned. -/
  | inputPlanned (edge : EdgeId) (kind : Kind) (channels : Count) (reuse : UInt32)
      (buffers : UInt64)
  /-- The pool of an output edge was planned. -/
  | outputPlanned (edge : EdgeId) (kind : Kind) (subpartitions : Count) (buffers : UInt64)
  /-- A pool without a ceiling was refused. -/
  | refused (kind : Kind)
  /-- The whole task was planned. -/
  | announced (inputs outputs total : UInt64)
  /-- The announcement is smaller than the pools can grow. -/
  | shortfall (total : UInt64) (footprint? : Option UInt64)
deriving DecidableEq, Repr

/-- A value attached to an event. -/
inductive Datum where
  | count (n : UInt64)
  | text (s : String)
deriving DecidableEq, Repr

namespace Event

/-- How much the event matters. -/
def level : Event → Level
  | inputPlanned .. | outputPlanned .. | announced .. => .debug
  | refused _ => .error
  | shortfall .. => .warn

/-- The event in words. -/
def message : Event → String
  | inputPlanned .. => "planned input gate"
  | outputPlanned .. => "planned result partition"
  | refused _ => "refusing to announce an unbounded result partition pool"
  | announced .. => "network buffer announcement"
  | shortfall .. => "announcement does not cover pool footprint"

/-- A count that may be missing, in words. -/
def optionalCount : Option UInt64 → String
  | none => "None"
  | some n => "Some(" ++ Text.Decimal.ofWord n ++ ")"

/-- The values attached to the event, by name. -/
def fields : Event → List (String × Datum)
  | inputPlanned edge kind channels reuse buffers =>
    [("edge", .text edge.hex), ("kind", .text kind.name), ("channels", .count channels.word),
      ("reuse_count", .count reuse.toUInt64), ("buffers", .count buffers)]
  | outputPlanned edge kind subpartitions buffers =>
    [("edge", .text edge.hex), ("kind", .text kind.name),
      ("subpartitions", .count subpartitions.word), ("buffers", .count buffers)]
  | refused kind => [("kind", .text kind.name)]
  | announced inputs outputs total =>
    [("inputs", .count inputs), ("outputs", .count outputs), ("total", .count total)]
  | shortfall total footprint? =>
    [("announced", .count total), ("footprint", .text (optionalCount footprint?))]

end Event

/-! ## Results with events -/

/-- The events of a run and how it ended. -/
structure Traced (α : Type) where
  events : List Event
  outcome : Except PlanError α

namespace Traced

variable {α β : Type}

/-- A run that reports nothing. -/
def ofExcept (outcome : Except PlanError α) : Traced α := ⟨[], outcome⟩

/-- A run that reports one event. -/
def report (e : Event) : Traced Unit := ⟨[e], .ok ()⟩

/-- One run after another. If the first fails, the second does not take place. -/
def andThen (x : Traced α) (f : α → Traced β) : Traced β :=
  match x.outcome with
  | .ok a =>
    let y := f a
    ⟨x.events ++ y.events, y.outcome⟩
  | .error e => ⟨x.events, .error e⟩

instance : Monad Traced where
  pure a := ⟨[], .ok a⟩
  bind := andThen

/-- The run with its error changed. -/
def mapError (f : PlanError → PlanError) (x : Traced α) : Traced α :=
  ⟨x.events, x.outcome.mapError f⟩

theorem id_map (x : Traced α) : id <$> x = x := by
  obtain ⟨es, r⟩ := x
  cases r <;> simp [Functor.map, andThen]

theorem bind_assoc {γ : Type} (x : Traced α) (f : α → Traced β) (g : β → Traced γ) :
    x >>= f >>= g = x >>= fun a => f a >>= g := by
  obtain ⟨es, r⟩ := x
  cases r with
  | error e => rfl
  | ok a =>
    simp only [bind, andThen]
    cases (f a).outcome <;> simp

instance : LawfulMonad Traced := LawfulMonad.mk' Traced id_map (fun _ _ => rfl) bind_assoc

end Traced

end BufferPlan
