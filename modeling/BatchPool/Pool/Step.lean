import BatchPool.Pool.Event

/-!
# Steps of a pool

A pool moves in atomic steps. Which step is next, which jobs are enqueued, how a job ends, whether a
thread can be started and whether a report kills its thread is up to the surroundings.

* `Step`: the steps of the callers, of the dispatch loop and of the workers.
* `Pool.step?`: the pool after a step and what happened, where the step is possible. A step that is
  not possible means that its thread is blocked, or is somewhere else.

A call that waits for room is counted before its job enters the queue, so no worker can complete a job
that is not counted yet; a call that does not wait inserts and counts in one step.
-/

namespace BatchPool

namespace Pool

/-- A step of a pool. -/
inductive Step (J : Type) where
  /-- A call that waits for room begins: its job is in flight. -/
  | enqueue (caller : Thread) (job : J)
  /-- There is room, and the job of a waiting call enters the queue. -/
  | insert (caller : Thread)
  /-- A waiting call finds the queue closed. -/
  | refuse (caller : Thread)
  /-- A refused call takes its job back. -/
  | rollback (caller : Thread)
  /-- A call that does not wait: its job enters the queue if there is room. -/
  | offer (caller : Thread) (job : J)
  /-- Closes the queue. -/
  | close (caller : Thread)
  /-- A call begins to start the threads. -/
  | start (caller : Thread)
  /-- The next thread is started, or fails to start. -/
  | spawn (fails : Bool)
  /-- A call begins to shut the pool down: the queue is closed. -/
  | shutDown (caller : Thread)
  /-- A pool that was never started will not be started any more. -/
  | retire (caller : Thread)
  /-- The call takes over the threads that nobody has joined yet. -/
  | collect (caller : Thread)
  /-- The next thread has ended and is joined. -/
  | join (caller : Thread)
  /-- All threads are joined, and the call returns. -/
  | finish (caller : Thread)
  /-- No job is in flight, and a call that waited for this returns. -/
  | idle (caller : Thread)
  /-- The pool is given up by its last user. -/
  | drop
  /-- The loop takes the next job, or ends when there will be none. -/
  | take
  /-- The worker whose turn it is is ready, or gone. -/
  | claim
  /-- The loop puts the job in the slot of the worker. -/
  | hand
  /-- The loop reports a job that nobody will do. -/
  | discard (panics : Bool)
  /-- A discarded job is no longer in flight. -/
  | settle
  /-- A worker says that it is ready, or stops when nobody listens. -/
  | announce (worker : Nat)
  /-- A worker takes the job from its slot, or stops when there will be none. -/
  | receive (worker : Nat)
  /-- The work function ends, and what has to be reported is reported. -/
  | conclude (worker : Nat) (outcome : Outcome) (panics : Bool)
  /-- The job of a worker is no longer in flight. -/
  | complete (worker : Nat)

variable {J : Type}

/-- What a step gives: the pool behind it and what happened, or nothing if it is not possible. -/
abbrev Stepped (J : Type) := Option (Pool J × List (Event J))

/-! ## Enqueueing -/

/-- The call of a thread that waits for room. -/
def waitingOf? (p : Pool J) (caller : Thread) : Option (Waiting J) :=
  p.waiting.find? fun c => c.caller = caller

/-- The pool after the waiting call of a thread has returned. -/
def endWaiting (p : Pool J) (caller : Thread) : Pool J :=
  { p with waiting := p.waiting.filter fun c => c.caller ≠ caller }

/-- A call that waits for room begins. -/
def enqueue (p : Pool J) (caller : Thread) (job : J) : Stepped J :=
  if p.mayCall caller then
    some ({ p with
      inFlight := p.inFlight + 1
      waiting := p.waiting ++ [{ caller := caller, job := job }] }, [])
  else none

/-- The job of a waiting call enters the queue. -/
def insertWaiting (p : Pool J) (caller : Thread) : Stepped J :=
  match p.waitingOf? caller with
  | none => none
  | some c =>
    if c.refused || p.closed || p.isFull then none
    else some ((p.insert c.job).endWaiting caller,
      [.accepted caller { number := p.inserted, job := c.job }])

/-- A waiting call finds the queue closed. -/
def refuse (p : Pool J) (caller : Thread) : Stepped J :=
  match p.waitingOf? caller with
  | none => none
  | some c =>
    if !c.refused && p.closed then
      some ({ p with
        waiting := p.waiting.map fun c => if c.caller = caller then { c with refused := true } else c },
        [])
    else none

/-- A refused call takes its job back and returns. -/
def rollback (p : Pool J) (caller : Thread) : Stepped J :=
  match p.waitingOf? caller with
  | none => none
  | some c =>
    if c.refused then
      some ({ p with inFlight := p.inFlight - 1 }.endWaiting caller,
        [.logged caller .rejected, .rejected caller c.job])
    else none

/-- A call that does not wait. -/
def offer (p : Pool J) (caller : Thread) (job : J) : Stepped J :=
  if p.mayCall caller then
    if p.closed then some (p, [.logged caller .rejected, .rejected caller job])
    else if p.isFull then some (p, [.overflowed caller job])
    else some ({ p.insert job with inFlight := p.inFlight + 1 },
      [.accepted caller { number := p.inserted, job := job }])
  else none

/-! ## Starting and shutting down -/

/-- The pool with its queue closed. Only who closes it logs it. -/
def closeQueue (p : Pool J) (caller : Thread) : Pool J × List (Event J) :=
  if p.closed then (p, []) else ({ p with closed := true }, [.logged caller .closed])

/-- Closes the queue. -/
def close (p : Pool J) (caller : Thread) : Stepped J :=
  if p.mayCall caller then some (p.closeQueue caller) else none

/-- A call begins to start the threads. Only the first one does, and none once the pool is shut
down. -/
def start (p : Pool J) (caller : Thread) : Stepped J :=
  if p.mayCall caller then
    match p.lifecycle with
    | .stopped => some ({ p with lifecycle := .starting caller 0 }, [])
    | _ => some (p, [.startEnded caller (.error .alreadyRunning)])
  else none

/-- The thread that is started as number `n`. -/
def threadAt (p : Pool J) (n : Nat) : Thread :=
  if n < p.workerCount then .worker n else .dispatch

/-- The next thread fails to start: the queue is closed, and the threads that did start will find
their channels closed. -/
def failStart (p : Pool J) (caller : Thread) (n : Nat) : Pool J × List (Event J) :=
  let error := Error.notStarted ((threadName p.name (p.threadAt n)).getD "")
  ({ p with lifecycle := .failed, closed := true },
    [.logged caller (.notStarted error), .startEnded caller (.error error)])

/-- The next thread is started. -/
def startThread (p : Pool J) (caller : Thread) (n : Nat) : Pool J × List (Event J) :=
  match p.workers[n]? with
  | some w =>
    ({ p.setWorker n { w with phase := .announcing } with
      lifecycle := .starting caller (n + 1), threads := p.threads ++ [.worker n] },
      [.logged (.worker n) (.workerStarted n)])
  | none =>
    ({ p with lifecycle := .running, loop := .receiving, threads := p.threads ++ [.dispatch] },
      [.logged .dispatch .loopStarted, .logged caller (.started p.workerCount),
        .startEnded caller (.ok ())])

/-- The next thread is started, or fails to start. -/
def spawn (p : Pool J) (fails : Bool) : Stepped J :=
  match p.lifecycle with
  | .starting caller n => some (if fails then p.failStart caller n else p.startThread caller n)
  | _ => none

/-- How far the call of a thread that shuts the pool down has come. -/
def shutdownOf? (p : Pool J) (caller : Thread) : Option Shutdown := p.shutdowns.lookup caller

/-- The pool with another stage for the call of a thread that shuts it down. -/
def setShutdown (p : Pool J) (caller : Thread) (stage : Shutdown) : Pool J :=
  { p with shutdowns := p.shutdowns.map fun s => if s.1 = caller then (caller, stage) else s }

/-- A call begins to shut the pool down. -/
def shutDown (p : Pool J) (caller : Thread) : Stepped J :=
  if p.mayCall caller then
    let (p, events) := p.closeQueue caller
    some ({ p with shutdowns := p.shutdowns ++ [(caller, .retiring)] }, events)
  else none

/-- A pool that was never started will not be started any more. -/
def retire (p : Pool J) (caller : Thread) : Stepped J :=
  match p.shutdownOf? caller with
  | some .retiring =>
    let lifecycle := if p.lifecycle = Lifecycle.stopped then .retired else p.lifecycle
    some ({ p with lifecycle := lifecycle }.setShutdown caller .collecting, [])
  | _ => none

/-- Threads are being started, and their list is locked. -/
def threadsLocked (p : Pool J) : Bool :=
  match p.lifecycle with
  | .starting _ (_ + 1) => true
  | _ => false

/-- The call takes over the threads that nobody has joined yet. -/
def collect (p : Pool J) (caller : Thread) : Stepped J :=
  match p.shutdownOf? caller with
  | some .collecting =>
    if p.threadsLocked then none
    else some ({ p with threads := [] }.setShutdown caller (.joining p.threads), [])
  | _ => none

/-- The next thread has ended and is joined. -/
def join (p : Pool J) (caller : Thread) : Stepped J :=
  match p.shutdownOf? caller with
  | some (.joining (t :: rest)) =>
    if p.exited t then
      some (p.setShutdown caller (.joining rest),
        if p.died t then [.logged caller .threadPanicked] else [])
    else none
  | _ => none

/-- All threads are joined, and the call returns. -/
def finish (p : Pool J) (caller : Thread) : Stepped J :=
  match p.shutdownOf? caller with
  | some (.joining []) =>
    some ({ p with shutdowns := p.shutdowns.filter fun s => s.1 ≠ caller },
      [.logged caller .finished, .shutdownEnded caller])
  | _ => none

/-- A call that waited until no job is in flight returns. -/
def idle (p : Pool J) (caller : Thread) : Stepped J :=
  if p.mayCall caller && p.inFlight = 0 then some (p, [.idle caller]) else none

/-- The pool is given up: nobody is in a call, and nobody will make one. -/
def drop (p : Pool J) : Stepped J :=
  match p.lifecycle with
  | .starting _ _ => none
  | lifecycle =>
    if p.dropped || !p.waiting.isEmpty || !p.shutdowns.isEmpty then none
    else
      let lifecycle := if lifecycle = Lifecycle.stopped then .retired else lifecycle
      some ({ p with dropped := true, closed := true, threads := [], lifecycle := lifecycle }, [])

/-! ## The dispatch loop -/

/-- The worker whose turn it is. -/
def turn? (p : Pool J) : Option (Worker J) := p.workers[p.cursor]?

/-- The pool with its loop waiting for a job, and the next worker's turn. -/
def nextTurn (p : Pool J) : Pool J :=
  { p with loop := .receiving, cursor := (p.cursor + 1) % p.workerCount }

/-- The loop takes the next job, or ends when there will be none. -/
def take (p : Pool J) : Stepped J :=
  match p.loop, p.queue with
  | .receiving, t :: rest => some ({ p with queue := rest, loop := .holding t }, [])
  | .receiving, [] =>
    if p.closed then some ({ p with loop := .stopped }, [.logged .dispatch .loopEnded]) else none
  | _, _ => none

/-- The loop takes the ready token of the worker whose turn it is, or finds that there will be
none. -/
def claim (p : Pool J) : Stepped J :=
  match p.loop, p.turn? with
  | .holding t, some w =>
    if w.ready then
      some ({ p.setWorker p.cursor { w with ready := false } with loop := .handing t }, [])
    else if w.gone then some ({ p with loop := .discarding t }, [])
    else none
  | _, _ => none

/-- The loop puts the job in the slot of the worker, or finds that it is gone. -/
def hand (p : Pool J) : Stepped J :=
  match p.loop, p.turn? with
  | .handing t, some w =>
    if w.gone then some ({ p with loop := .discarding t }, [])
    else if w.slot.isNone then
      some ((p.setWorker p.cursor { w with slot := some t }).nextTurn, [.handed p.cursor t])
    else none
  | _, _ => none

/-- The loop reports a job that nobody will do. If the report kills the loop, the queue is closed and
what is in it stays there. -/
def discard (p : Pool J) (panics : Bool) : Stepped J :=
  match p.loop with
  | .discarding t =>
    let events := [.discarded p.cursor t, .reported .dispatch (.discarded p.cursor)]
    if panics then
      some ({ p with loop := .dead t, closed := true }, events ++ [.lost .dispatch t])
    else some ({ p with loop := .settling t }, events)
  | _ => none

/-- A discarded job is no longer in flight. -/
def settle (p : Pool J) : Stepped J :=
  match p.loop with
  | .settling t =>
    some ({ p with inFlight := p.inFlight - 1 }.nextTurn, [.completed .dispatch t])
  | _ => none

/-! ## The workers -/

/-- A worker says that it is ready, or stops when nobody listens. -/
def announce (p : Pool J) (i : Nat) : Stepped J :=
  match p.workers[i]? with
  | some { phase := .announcing, ready, slot } =>
    if !p.handlesHeld then
      some (p.setWorker i { phase := .stopped, ready, slot }, [.logged (.worker i) (.workerStopped i)])
    else if ready then none
    else some (p.setWorker i { phase := .listening, ready := true, slot }, [])
  | _ => none

/-- A worker takes the job from its slot, or stops when there will be none. -/
def receive (p : Pool J) (i : Nat) : Stepped J :=
  match p.workers[i]? with
  | some { phase := .listening, ready, slot := some t } =>
    some (p.setWorker i { phase := .executing t, ready, slot := none }, [.began i t])
  | some { phase := .listening, ready, slot := none } =>
    if p.handlesHeld then none
    else some (p.setWorker i { phase := .stopped, ready, slot := none },
      [.logged (.worker i) (.workerStopped i)])
  | _ => none

/-- The work function ends. If its report kills the worker, the job stays in flight for ever. -/
def conclude (p : Pool J) (i : Nat) (outcome : Outcome) (panics : Bool) : Stepped J :=
  match p.workers[i]? with
  | some { phase := .executing t, ready, slot } =>
    if p.busy (.worker i) then none
    else
      match outcome.report? i with
      | none => some (p.setWorker i { phase := .settling t, ready, slot }, [.ended i t outcome])
      | some report =>
        let events := [.ended i t outcome, .reported (.worker i) report]
        if panics then
          some (p.setWorker i { phase := .dead t, ready, slot }, events ++ [.lost (.worker i) t])
        else some (p.setWorker i { phase := .settling t, ready, slot }, events)
  | _ => none

/-- The job of a worker is no longer in flight. -/
def complete (p : Pool J) (i : Nat) : Stepped J :=
  match p.workers[i]? with
  | some { phase := .settling t, ready, slot } =>
    some ({ p.setWorker i { phase := .announcing, ready, slot } with inFlight := p.inFlight - 1 },
      [.completed (.worker i) t])
  | _ => none

/-- The pool after a step and what happened, where the step is possible. -/
def step? (p : Pool J) : Step J → Stepped J
  | .enqueue caller job => p.enqueue caller job
  | .insert caller => p.insertWaiting caller
  | .refuse caller => p.refuse caller
  | .rollback caller => p.rollback caller
  | .offer caller job => p.offer caller job
  | .close caller => p.close caller
  | .start caller => p.start caller
  | .spawn fails => p.spawn fails
  | .shutDown caller => p.shutDown caller
  | .retire caller => p.retire caller
  | .collect caller => p.collect caller
  | .join caller => p.join caller
  | .finish caller => p.finish caller
  | .idle caller => p.idle caller
  | .drop => p.drop
  | .take => p.take
  | .claim => p.claim
  | .hand => p.hand
  | .discard panics => p.discard panics
  | .settle => p.settle
  | .announce i => p.announce i
  | .receive i => p.receive i
  | .conclude i outcome panics => p.conclude i outcome panics
  | .complete i => p.complete i

end Pool

end BatchPool
