import BufferPlan.OptionError
import BufferPlan.Text.Blank
import BufferPlan.Text.Decimal
import BufferPlan.Tuning.Basic

/-!
# Tuning values from cluster options

A cluster publishes its configuration as a sequence of keys and texts. `Tuning.ofOptions` starts
from the defaults and reads the sequence in order: an unknown key is skipped, a known one sets its
value, and a later option overrides an earlier one. A text that is no count is refused where it
stands, even if a later option overrides it; the ranges are checked at the end, on what is left
(`Tuning.validate`).
-/

namespace BufferPlan

/-- One tuning value that an option can set. -/
inductive Setting where
  | buffersPerChannel
  | floatingPerGate
  | gateCap
  | sortFanOut
  | sortFloor
deriving DecidableEq, Repr

namespace Setting

/-- Every setting. -/
def all : List Setting := [buffersPerChannel, floatingPerGate, gateCap, sortFanOut, sortFloor]

/-- The key under which a cluster publishes the setting. -/
def key : Setting → String
  | buffersPerChannel => "taskmanager.network.memory.buffers-per-channel"
  | floatingPerGate => "taskmanager.network.memory.floating-buffers-per-gate"
  | gateCap => "taskmanager.network.memory.read-buffer.required-per-gate.max"
  | sortFanOut => "taskmanager.network.sort-shuffle.min-parallelism"
  | sortFloor => "taskmanager.network.sort-shuffle.min-buffers"

/-- The setting published under a key. -/
def ofKey? (k : String) : Option Setting := all.find? fun s => s.key == k

theorem mem_all (s : Setting) : s ∈ all := by cases s <;> decide

theorem ofKey?_key (s : Setting) : ofKey? s.key = some s := by cases s <;> decide

end Setting

namespace Tuning

/-- The 32-bit count a text denotes. -/
def count? (text : String) : Option UInt32 :=
  (Text.Decimal.signed? text.toList).bind Text.Decimal.word32?

/-- The count a text denotes; the error names the key. -/
def readCount (key text : String) : Except OptionError UInt32 :=
  match count? text with
  | some n => .ok n
  | none => .error (.badValue key text)

/-- The values with one of them set from a text. An empty text lifts the cap. -/
def assign (t : Tuning) (s : Setting) (text : String) : Except OptionError Tuning :=
  match s with
  | .buffersPerChannel => (readCount s.key text).map fun n => { t with buffersPerChannel := n }
  | .floatingPerGate => (readCount s.key text).map fun n => { t with floatingPerGate := n }
  | .gateCap =>
    if text.isEmpty then .ok { t with gateCap := none }
    else (readCount s.key text).map fun n => { t with gateCap := some n }
  | .sortFanOut => (readCount s.key text).map fun n => { t with sortFanOut := n }
  | .sortFloor => (readCount s.key text).map fun n => { t with sortFloor := n }

/-- The values after one option. -/
def readOption (t : Tuning) (option : String × String) : Except OptionError Tuning :=
  match Setting.ofKey? option.1 with
  | some s => t.assign s (Text.trimmed option.2)
  | none => .ok t

/-- Refuses a count of zero. -/
def requirePositive (s : Setting) (n : UInt32) : Except OptionError Unit :=
  if n = 0 then .error (.belowLeast s.key 0 1) else .ok ()

/-- Checks the ranges: the fan-out and the floor of sorted pools, and the cap if there is one, are
at least one. -/
def validate (t : Tuning) : Except OptionError Unit := do
  requirePositive .sortFanOut t.sortFanOut
  requirePositive .sortFloor t.sortFloor
  match t.gateCap with
  | some cap => requirePositive .gateCap cap
  | none => .ok ()

/-- The values a sequence of options gives. -/
def ofOptions (options : List (String × String)) : Except OptionError Tuning := do
  let t ← options.foldlM readOption default
  t.validate
  return t

end Tuning

end BufferPlan
