import BatchPool.Batch.Calls
import BatchPool.Pool.Next

/-!
# A batch that feeds a pool

The groups of a batch go to a pool as jobs: the handler of the batch enqueues the group that it is
given and waits for room. If the queue is closed, the handler fails, and so does the call of the batch
that took the group out.

* `Feed`: a batch and a pool, with all that happened in both.
* `Feed.Step`: the steps of the threads that push and flush, and those of the pool.
* `Feed.step?`: the feed after a step, where the step is possible.
-/

namespace BatchPool

/-- A batch whose groups are the jobs of a pool. Thread `t` of the batch is client `t` of the pool. -/
structure Feed (R : Type) where
  calls : Batch.Calls R Unit
  play : Pool.Play (Job (List R))

namespace Feed

variable {R : Type}

/-- A step of a feed: a call of the batch begins, the handler of a call is entered, or the pool
moves. -/
inductive Step (R : Type) where
  | push (thread : Nat) (record : R)
  | flush (thread : Nat)
  | enter (thread : Nat)
  | pool (step : Pool.Step (Job (List R)))

/-- A feed before anything happened. -/
def ofPool (batchSize : Nat) (p : Pool (Job (List R))) : Feed R where
  calls := { batch := .ofHandler batchSize () }
  play := { pool := p }

/-- The pool of the feed. -/
def pool (f : Feed R) : Pool (Job (List R)) := f.play.pool

/-- The thread is in no call, neither of the batch nor of the pool. -/
def free (f : Feed R) (thread : Nat) : Bool :=
  (f.calls.stack thread).isEmpty && !f.pool.busy (.client thread)

/-- What a handler comes to whose group was refused. -/
def refusal : Outcome := .failed { cause := .pool .closed }

/-- The call of the batch that a thread is in returns, because its handler does. -/
def leave (f : Feed R) (thread : Nat) (outcome : Outcome) : Feed R :=
  match f.calls.move? (.leave thread outcome) with
  | some calls => { f with calls := calls }
  | none => f

/-- The feed after its pool moved: if that was the end of a call by which a handler enqueued its
group, the handler returns. -/
def afterPool (f : Feed R) : Pool.Step (Job (List R)) → Feed R
  | .insert (.client t) => f.leave t .done
  | .rollback (.client t) => f.leave t refusal
  | _ => f

/-- A thread that is in a call of the batch begins no other call of the pool. -/
def allows (f : Feed R) (step : Pool.Step (Job (List R))) : Bool :=
  match step.beginner? with
  | some (.client t) => (f.calls.stack t).isEmpty
  | _ => true

/-- The feed after a step, where the step is possible. -/
def step? (f : Feed R) : Step R → Option (Feed R)
  | .push t record =>
    if f.free t then (f.calls.move? (.push t record)).map fun calls => { f with calls := calls }
    else none
  | .flush t =>
    if f.free t then (f.calls.move? (.flush t)).map fun calls => { f with calls := calls }
    else none
  | .enter t =>
    match f.calls.stack t with
    | .holding _ group :: _ =>
      match f.calls.move? (.enter t), f.play.step? (.enqueue (.client t) (.ofContext group)) with
      | some calls, some play => some { calls := calls, play := play }
      | _, _ => none
    | _ => none
  | .pool step =>
    if f.allows step then
      (f.play.step? step).map fun play => { f with play := play }.afterPool step
    else none

/-- What the calls of the batch came to, the oldest first. -/
def replies (f : Feed R) : List Reply :=
  f.calls.history.reverse.filterMap fun
    | .returned _ reply => some reply
    | _ => none

end Feed

end BatchPool
