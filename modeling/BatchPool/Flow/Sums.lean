import BatchPool.Flow.Run

/-!
# Sums of groups

A flow that adds up groups of integers: the workers note the size and the sum of each group, and the
writer keeps the sums. Some sums are refused by the workers, one by the writer.

* `Sums`: which sums are refused, and when the pool is closed.
* `Sums.run`: the flow over a list of integers, run to its end.
-/

namespace BatchPool

/-- Workers fail on multiples of `divisor`, if that is positive; the writer fails on `rejected`. The
pool is closed before item number `closeBefore` is pushed. -/
structure Sums where
  divisor : Nat := 0
  rejected : Option Int := none
  closeBefore : Option Nat := none
  deriving Repr, DecidableEq

namespace Sums

/-- What a worker noted about a group. -/
structure Noted where
  worker : Nat
  size : Nat
  sum : Int
  deriving Repr, DecidableEq

/-- What a worker does for a group. -/
def task (s : Sums) (worker : Nat) (job : Job (List Int)) : Task (List Noted) Int :=
  let sum : Int := job.context.foldl (· + ·) 0
  .act fun notes =>
    (if 0 < s.divisor ∧ sum % s.divisor = 0 then
        .stop (.failed (.stated
          ("sum " ++ toString sum ++ " is a multiple of " ++ toString s.divisor)))
      else .call sum,
      { worker := worker, size := job.context.length, sum := sum } :: notes)

/-- How the writer ends on a sum. -/
def write (s : Sums) (sum : Int) : Outcome :=
  if s.rejected = some sum then .failed (.stated ("writer rejects " ++ toString sum)) else .done

/-- The work functions. -/
def plan (s : Sums) : Plan Int (List Noted) Int where
  task := s.task
  write := s.write

/-- The commands that push items, the first of them being number `index`. -/
def pushes (s : Sums) : (index : Nat) → List Int → List (Command Int)
  | _, [] => []
  | index, item :: rest =>
    (if s.closeBefore = some index then [.closePool] else []) ++ .push item ::
      s.pushes (index + 1) rest

/-- What the reading thread does. -/
def commands (s : Sums) (items : List Int) : List (Command Int) :=
  [.startWriter, .startPool] ++ s.pushes 0 items ++
    [.flush, .idlePool, .idleWriter, .shutPool, .shutWriter]

/-- The flow over a list of items, run to its end. -/
def run (s : Sums) (batchSize : Nat) (c : PoolConfig) (writerCapacity : Nat) (items : List Int) :
    Except Pool.Error (Flow Int (List Noted) Int) := do
  let f ← Flow.create batchSize c 1 writerCapacity [] (s.commands items)
  return f.finish s.plan 1

/-- What a worker noted, the oldest first. -/
def notedBy (f : Flow Int (List Noted) Int) (worker : Nat) : List Noted :=
  (f.shared.filter fun n => n.worker = worker).reverse

end Sums

end BatchPool
