import BatchPool.Pool.Run

/-!
# Scripted jobs

* `Errand`: a job whose behaviour is written down beforehand: it may wait at a gate, enqueue other
  errands in its own pool, and end in a given way.
* `Errand.actions`: what a worker does for it, one after another.
-/

namespace BatchPool

/-- A job that waits at its gate until its number is released, if it is gated; then enqueues others in
its own pool, each by a call that waits or by one that may drop it; then ends. -/
structure Errand where
  id : Int
  gated : Bool := false
  spawns : List (Bool × Job Errand) := []
  outcome : Outcome := .done
  deriving Inhabited

namespace Pool

/-- What a worker does next for an errand. -/
inductive Action where
  | begin (id : Int) (endOfStream : Bool)
  | await (id : Int)
  | call (index : Nat) (mayDrop : Bool) (job : Job Errand)
  | stop (id : Int) (outcome : Outcome)

/-- What a call of the pool comes to. -/
inductive Answer where
  | ok
  | refused (error : Error)
  | taken (yes : Bool)
  | idle
  | gone
  deriving Repr, DecidableEq

/-- What is noted about a thread: an errand began, a call of an errand returned, or the sink was
told. -/
inductive Note where
  | began (id : Int) (endOfStream : Bool)
  | called (index : Nat) (answer : Answer)
  | told (text : String)
  deriving Repr, DecidableEq

end Pool

namespace Errand

/-- The calls of an errand, the first of them being number `index`. -/
def calls : (index : Nat) → List (Bool × Job Errand) → List Pool.Action
  | _, [] => []
  | index, (mayDrop, job) :: rest => .call index mayDrop job :: calls (index + 1) rest

/-- What a worker does for an errand. -/
def actions (e : Errand) (endOfStream : Bool) : List Pool.Action :=
  .begin e.id endOfStream :: (if e.gated then [.await e.id] else []) ++ calls 0 e.spawns ++
    [.stop e.id e.outcome]

mutual

/-- How many errands come of an errand. -/
def weight : Errand → Nat
  | { spawns, .. } => weights spawns + 1

/-- How many errands come of a list of calls. -/
def weights : List (Bool × Job Errand) → Nat
  | [] => 0
  | (_, { context, .. }) :: rest => weight context + weights rest

end

end Errand

end BatchPool
