import BatchPool.Feed
import BatchPool.Pool.Single

/-!
# From a batch through two pools

Records are gathered in a batch; its groups are the jobs of a first pool, whose work function makes a
line of each; the lines are the jobs of a second pool of one worker, the writer. One thread reads: it
starts both pools, pushes the records, waits and shuts both pools down.

* `Task`: what a worker of the first pool has still to do: atomic steps on what the workers share, and
  at the end a call of the writer.
* `Command`: what the reading thread does.
* `Plan`: the two work functions.
* `Flow`: the whole. `Flow.step?` is the flow after a step of one of its threads; every thread has one
  next step, so a run is known by the order in which the threads move.
-/

namespace BatchPool

/-- What a worker has still to do for a job: a step on what the workers share, a call of the writer
with a line, or the end of its work function. -/
inductive Task (S L : Type) where
  | act (step : S → Task S L × S)
  | call (line : L)
  | stop (outcome : Outcome)

/-- What the reading thread does. -/
inductive Command (R : Type) where
  | startWriter
  | startPool
  | push (record : R)
  | flush
  | closePool
  | idlePool
  | idleWriter
  | last
  | shutPool
  | shutWriter

/-- The work functions of a flow. `task i` is what worker `i` does for a job, `write` how the writer
ends on a line. The reading of a strict flow ends at the first call that is refused. -/
structure Plan (R S L : Type) where
  task : Nat → Job (List R) → Task S L
  write : L → Outcome
  strict : Bool := false

/-- A batch, a pool and a writer, with what the workers share, what they are at, what the reading
thread has still to do, and the lines that were written, the last one first. Client `i + 1` of the
writer is worker `i` of the pool. -/
structure Flow (R S L : Type) where
  feed : Feed R
  writer : Pool.Play (Job L)
  shared : S
  tasks : List (Nat × Task S L) := []
  commands : List (Command R)
  written : List L := []

namespace Flow

variable {R S L : Type}

/-- The threads of a flow. -/
inductive Actor where
  | reader
  | dispatch
  | worker (index : Nat)
  | writerDispatch
  | writer
  deriving Repr, DecidableEq

/-- A flow whose threads are not started. -/
def create (batchSize : Nat) (c : PoolConfig) (processors writerCapacity : Nat) (shared : S)
    (commands : List (Command R)) : Except Pool.Error (Flow R S L) := do
  let writer ← Pool.create (Pool.singleConfig writerCapacity) processors
  let pool ← Pool.create c processors
  return {
    feed := Feed.ofPool batchSize pool
    writer := { pool := writer }
    shared := shared
    commands := commands }

/-- A step of the feed, where it is possible. -/
def feedStep? (f : Flow R S L) (step : Feed.Step R) : Option (Flow R S L) :=
  (f.feed.step? step).map fun feed => { f with feed := feed }

/-- A step of the writer, where it is possible. -/
def writerStep? (f : Flow R S L) (step : Pool.Step (Job L)) : Option (Flow R S L) :=
  (f.writer.step? step).map fun writer => { f with writer := writer }

/-! ## The reading thread -/

/-- The step by which a command begins. -/
def begin? (f : Flow R S L) : Command R → Option (Flow R S L)
  | .startWriter => f.writerStep? (.start (.client 0))
  | .startPool => f.feedStep? (.pool (.start (.client 0)))
  | .push record => f.feedStep? (.push 0 record)
  | .flush => f.feedStep? (.flush 0)
  | .closePool => f.feedStep? (.pool (.close (.client 0)))
  | .idlePool => f.feedStep? (.pool (.idle (.client 0)))
  | .idleWriter => f.writerStep? (.idle (.client 0))
  | .last => f.feedStep? (.pool (.enqueue (.client 0) (.last [])))
  | .shutPool => f.feedStep? (.pool (.shutDown (.client 0)))
  | .shutWriter => f.writerStep? (.shutDown (.client 0))

/-- The flow after a step of a call that the reading thread is in: the reading of a strict flow ends
when the call is refused. -/
def afterCall (plan : Plan R S L) (f : Flow R S L) : Pool.Step (Job (List R)) → Flow R S L
  | .rollback _ => if plan.strict then { f with commands := [] } else f
  | _ => f

/-- The next step of the reading thread: it goes on with the call that it is in, or begins with the
next command. -/
def readerStep? (plan : Plan R S L) (f : Flow R S L) : Option (Flow R S L) :=
  match f.feed.calls.stack 0 with
  | .holding _ _ :: _ => f.feedStep? (.enter 0)
  | _ =>
    match f.feed.pool.callStep? (.client 0) with
    | some step => (f.feedStep? (.pool step)).map fun f => f.afterCall plan step
    | none =>
      match f.writer.pool.callStep? (.client 0) with
      | some step => f.writerStep? step
      | none =>
        match f.commands with
        | [] => none
        | command :: rest => (f.begin? command).map fun f => { f with commands := rest }

/-! ## The workers of the pool -/

/-- What a worker has still to do for its job. -/
def task? (f : Flow R S L) (i : Nat) : Option (Task S L) := f.tasks.lookup i

/-- The flow with another task for a worker. -/
def setTask (f : Flow R S L) (i : Nat) (task : Task S L) : Flow R S L :=
  { f with tasks := (i, task) :: f.tasks.filter fun t => t.1 ≠ i }

/-- The flow without a task for a worker. -/
def endTask (f : Flow R S L) (i : Nat) : Flow R S L :=
  { f with tasks := f.tasks.filter fun t => t.1 ≠ i }

/-- What a worker does after a step of its call of the writer. -/
def afterWrite (f : Flow R S L) (i : Nat) : Pool.Step (Job L) → Flow R S L
  | .insert _ => f.setTask i (.stop .done)
  | .rollback _ => f.setTask i (.stop Feed.refusal)
  | _ => f

/-- The next step of a worker on its task. -/
def taskStep? (f : Flow R S L) (i : Nat) : Task S L → Option (Flow R S L)
  | .act step =>
    let (task, shared) := step f.shared
    some ({ f with shared := shared }.setTask i task)
  | .call line =>
    match f.writer.pool.callStep? (.client (i + 1)) with
    | some step => (f.writerStep? step).map fun f => f.afterWrite i step
    | none => f.writerStep? (.enqueue (.client (i + 1)) (.ofContext line))
  | .stop outcome => (f.feedStep? (.pool (.conclude i outcome false))).map fun f => f.endTask i

/-- The next step of a worker. A worker that takes a job has its task. -/
def workerStep? (plan : Plan R S L) (f : Flow R S L) (i : Nat) : Option (Flow R S L) :=
  match f.feed.pool.executing? i with
  | some _ => (f.task? i).bind (f.taskStep? i)
  | none =>
    ((f.feed.pool.workerStep? i).bind fun step => f.feedStep? (.pool step)).map fun f =>
      match f.feed.pool.executing? i with
      | some t => f.setTask i (plan.task i t.job)
      | none => f

/-! ## The writer -/

/-- The flow after the writer ended on a line. -/
def afterLine (f : Flow R S L) (line : L) : Outcome → Flow R S L
  | .done => { f with written := line :: f.written }
  | _ => f

/-- The next step of the writer's worker. -/
def writeStep? (plan : Plan R S L) (f : Flow R S L) : Option (Flow R S L) :=
  match f.writer.pool.executing? 0 with
  | some t =>
    let outcome := plan.write t.job.context
    (f.writerStep? (.conclude 0 outcome false)).map fun f => f.afterLine t.job.context outcome
  | none => (f.writer.pool.workerStep? 0).bind f.writerStep?

/-! ## All threads -/

/-- The flow after the next step of a thread, where that is possible. -/
def step? (plan : Plan R S L) (f : Flow R S L) : Actor → Option (Flow R S L)
  | .reader => f.readerStep? plan
  | .dispatch => (f.feed.pool.loopStep? false).bind fun step => f.feedStep? (.pool step)
  | .worker i => f.workerStep? plan i
  | .writerDispatch => (f.writer.pool.loopStep? false).bind f.writerStep?
  | .writer => f.writeStep? plan

/-- The flow after its threads moved in the given order, where that is possible. -/
def run? (plan : Plan R S L) (f : Flow R S L) : List Actor → Option (Flow R S L)
  | [] => some f
  | actor :: rest =>
    match f.step? plan actor with
    | some f => f.run? plan rest
    | none => none

/-- The lines that were written, the first one first. -/
def lines (f : Flow R S L) : List L := f.written.reverse

/-- What was reported in both pools. -/
def reports (f : Flow R S L) : List Report :=
  (f.feed.play.reports ++ f.writer.reports).map (·.2)

end Flow

end BatchPool
