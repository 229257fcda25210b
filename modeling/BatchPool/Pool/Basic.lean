import BatchPool.Config
import BatchPool.Job
import BatchPool.Outcome

/-!
# Pools

A pool has a bounded queue of jobs, a dispatch loop and a fixed number of workers. The loop takes the
jobs from the queue and hands them to the workers in turn, each to the next one; it waits for a worker
that is busy.

* `Ticket`: a job with its number in the order in which jobs entered the queue.
* `Worker`: what a worker is doing, the token by which it says that it is ready, and the slot in which
  a job is put for it.
* `Loop`: what the dispatch loop is doing.
* `Pool`: all that, with the calls that wait for room, the calls that shut the pool down, and the
  number of jobs in flight. `Pool.create` makes one whose threads are not started.
-/

namespace BatchPool

/-- A thread, as a pool knows it: one that uses the pool, one of its workers or its dispatch loop. -/
inductive Thread where
  | client (id : Nat)
  | worker (index : Nat)
  | dispatch
  deriving Repr, DecidableEq

/-- A job with its number in the order in which jobs entered the queue. -/
structure Ticket (J : Type) where
  number : Nat
  job : J
  deriving Repr, DecidableEq

namespace Pool

/-- What a worker is doing: it says that it is ready, it waits for a job, the work function is at work
on a job, or the job is done but still in flight. A dead worker was killed by the report of its job. -/
inductive Phase (J : Type) where
  | unborn
  | announcing
  | listening
  | executing (ticket : Ticket J)
  | settling (ticket : Ticket J)
  | stopped
  | dead (ticket : Ticket J)
  deriving Repr, DecidableEq

/-- A worker with its ready token and its slot. -/
structure Worker (J : Type) where
  phase : Phase J := .unborn
  ready : Bool := false
  slot : Option (Ticket J) := none
  deriving Repr, DecidableEq

/-- The worker will not take a job any more. -/
def Worker.gone {J : Type} (w : Worker J) : Bool :=
  match w.phase with
  | .stopped | .dead _ => true
  | _ => false

/-- What the dispatch loop is doing: it waits for a job, it holds one until its worker is ready, it
hands it over, or it has to discard it. A discarded job is reported before it is settled, and the loop
is dead if that report killed it. -/
inductive Loop (J : Type) where
  | unborn
  | receiving
  | holding (ticket : Ticket J)
  | handing (ticket : Ticket J)
  | discarding (ticket : Ticket J)
  | settling (ticket : Ticket J)
  | stopped
  | dead (ticket : Ticket J)
  deriving Repr, DecidableEq

/-- The dispatch loop has ended. -/
def Loop.ended {J : Type} : Loop J → Bool
  | .stopped | .dead _ => true
  | _ => false

/-- Where a pool stands between its making and its end. While it is being started, `next` is the
number of the thread that is started next: the workers come first, the dispatch loop last. A pool that
was shut down before it was started is retired. -/
inductive Lifecycle where
  | stopped
  | starting (caller : Thread) (next : Nat)
  | running
  | failed
  | retired
  deriving Repr, DecidableEq

/-- A call that waits for room in the queue. Its job is in flight already. A refused call found the
queue closed and has still to take its job back. -/
structure Waiting (J : Type) where
  caller : Thread
  job : J
  refused : Bool := false
  deriving Repr, DecidableEq

/-- How far a call that shuts the pool down has come. -/
inductive Shutdown where
  | retiring
  | collecting
  | joining (threads : List Thread)
  deriving Repr, DecidableEq

end Pool

/-- A pool for jobs `J`. `cursor` is the worker whose turn is next, `inserted` the number of the next
job that enters the queue, `threads` the started threads that nobody has joined yet. -/
structure Pool (J : Type) where
  name : String
  capacity : Nat
  workers : List (Pool.Worker J)
  queue : List (Ticket J) := []
  closed : Bool := false
  inserted : Nat := 0
  inFlight : Nat := 0
  waiting : List (Pool.Waiting J) := []
  lifecycle : Pool.Lifecycle := .stopped
  loop : Pool.Loop J := .unborn
  cursor : Nat := 0
  threads : List Thread := []
  shutdowns : List (Thread × Pool.Shutdown) := []
  dropped : Bool := false
  deriving Repr, DecidableEq

namespace Pool

variable {J : Type}

/-- A pool whose threads are not started, on a machine with the given number of processors. It needs a
worker and room for a job. -/
def create (c : PoolConfig) (processors : Nat) : Except Error (Pool J) :=
  if c.workers processors = 0 then .error .noWorkers
  else if c.queueCapacity = 0 then .error .noCapacity
  else .ok {
    name := c.threadName
    capacity := c.queueCapacity
    workers := List.replicate (c.workers processors) {} }

/-! ## What can be seen -/

/-- The number of workers, started or not. -/
def workerCount (p : Pool J) : Nat := p.workers.length

/-- The number of jobs in the queue. -/
def queued (p : Pool J) : Nat := p.queue.length

/-- The queue has no room. -/
def isFull (p : Pool J) : Bool := p.capacity ≤ p.queue.length

/-- A pool as it is shown in messages. -/
def debug (p : Pool J) : String :=
  "Dispatcher \x7b thread_name: " ++ Text.debug p.name ++ ", worker_count: " ++
    toString p.workerCount ++ ", queue_capacity: " ++ toString p.capacity ++ ", queued_jobs: " ++
    toString p.queued ++ ", in_flight: " ++ toString p.inFlight ++ " \x7d"

/-- The name of a thread of a pool with the given name. -/
def threadName (name : String) : Thread → Option String
  | .client _ => none
  | .worker i => some (name ++ "-worker-" ++ toString i)
  | .dispatch => some (name ++ "-dispatch")

/-! ## Who may do what -/

/-- The ends of the channels to the workers are still held: by the pool before it is started, by the
dispatch loop afterwards. -/
def handlesHeld (p : Pool J) : Bool :=
  match p.lifecycle with
  | .stopped | .starting _ _ => true
  | .running => !p.loop.ended
  | .failed | .retired => false

/-- A thread of the pool has ended. -/
def exited (p : Pool J) : Thread → Bool
  | .client _ => false
  | .worker i =>
    match p.workers[i]? with
    | some w => w.gone
    | none => false
  | .dispatch => p.loop.ended

/-- A thread of the pool was killed by a report. -/
def died (p : Pool J) : Thread → Bool
  | .client _ => false
  | .worker i =>
    match p.workers[i]? with
    | some { phase := .dead _, .. } => true
    | _ => false
  | .dispatch =>
    match p.loop with
    | .dead _ => true
    | _ => false

/-- The thread is in the middle of a call. -/
def busy (p : Pool J) (caller : Thread) : Bool :=
  (p.waiting.any fun c => c.caller = caller) || (p.shutdowns.any fun s => s.1 = caller) ||
    match p.lifecycle with
    | .starting c _ => c = caller
    | _ => false

/-- The thread can make a call: it is in none, and it is a client or a worker that executes a job. -/
def mayCall (p : Pool J) (caller : Thread) : Bool :=
  !p.dropped && !p.busy caller &&
    match caller with
    | .client _ => true
    | .worker i =>
      match p.workers[i]? with
      | some { phase := .executing _, .. } => true
      | _ => false
    | .dispatch => false

/-- The pool with another worker in a place. -/
def setWorker (p : Pool J) (i : Nat) (w : Worker J) : Pool J :=
  { p with workers := p.workers.set i w }

/-- The pool with a job behind the others in the queue. -/
def insert (p : Pool J) (job : J) : Pool J :=
  { p with queue := p.queue ++ [{ number := p.inserted, job := job }], inserted := p.inserted + 1 }

/-! ## Small facts -/

theorem create_pos {c : PoolConfig} {processors : Nat} {p : Pool J}
    (h : create c processors = .ok p) : 0 < p.workerCount ∧ 0 < p.capacity := by
  unfold create at h
  split at h
  · simp at h
  · split at h
    · simp at h
    · simp only [Except.ok.injEq] at h
      subst h
      simp only [workerCount, List.length_replicate]
      omega

end Pool

end BatchPool
