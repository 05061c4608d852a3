/-!
# Partition kinds

How the data of a result partition, or of an input edge, is exchanged. Every sizing rule looks at
a kind through three classes only:

* **bounded**: the pool has a ceiling that follows from the fan-out;
* **blocking**: the data is persisted, so the pool is never held up by a consumer;
* **live**: consumers read while data is produced, so a slow one may hold every buffer.

A kind is either blocking or live (`isLive_eq_not_isBlocking`).
-/

namespace BufferPlan

/-- The kind of exchange. -/
inductive Kind where
  /-- Streamed live, with no ceiling on the pool. -/
  | pipelined
  /-- Streamed live, with a pool sized from the fan-out. -/
  | pipelinedBounded
  /-- Streamed live, and allowed to lose data on failover. -/
  | pipelinedApproximate
  /-- Produced in full before it is consumed. -/
  | blocking
  /-- Blocking, and kept beyond the job that produced it. -/
  | blockingPersistent
deriving DecidableEq, Repr

namespace Kind

/-- Every kind. -/
def all : List Kind :=
  [pipelined, pipelinedBounded, pipelinedApproximate, blocking, blockingPersistent]

/-- The name of a kind in cluster configuration and in documents. -/
def name : Kind → String
  | pipelined => "PIPELINED"
  | pipelinedBounded => "PIPELINED_BOUNDED"
  | pipelinedApproximate => "PIPELINED_APPROXIMATE"
  | blocking => "BLOCKING"
  | blockingPersistent => "BLOCKING_PERSISTENT"

/-- The pool has a finite ceiling that follows from the fan-out. -/
def isBounded : Kind → Bool
  | pipelinedBounded => true
  | _ => false

/-- The data is persisted or spilled and not held back by consumers. -/
def isBlocking : Kind → Bool
  | blocking | blockingPersistent => true
  | _ => false

/-- Consumers read while data is produced. -/
def isLive : Kind → Bool
  | pipelined | pipelinedBounded | pipelinedApproximate => true
  | _ => false

theorem mem_all (k : Kind) : k ∈ all := by cases k <;> decide

theorem isLive_eq_not_isBlocking (k : Kind) : k.isLive = !k.isBlocking := by cases k <;> rfl

theorem name_injective {k l : Kind} (h : k.name = l.name) : k = l := by
  cases k <;> cases l <;> first | rfl | exact absurd h (by decide)

end Kind

end BufferPlan
