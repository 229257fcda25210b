import BatchPool.Pool.Script
import BatchPool.Pool.Single
import BatchPool.Pool.Next

/-!
# Pools of scripted jobs

A pool whose jobs are errands, with the clients that use it and notes of what went on. After each
call from outside the pool moves until nothing can move without outside help.

* `Sink`: what becomes of the reports.
* `Rig`: the pool, its clients, the errands its workers are at, and the notes.
* `Rig.advance`: one step of whoever can make one.
* `Rig.settle`: steps until nothing can move.
* `Rig.create`, `Rig.single`: rigs around a pool.
* `Rig.start`, `Rig.enqueue`, `Rig.offer`, `Rig.shutDown`, …: calls from outside.
-/

namespace BatchPool

namespace Pool

/-- What becomes of reports: they are noted, after which a sink may panic on some texts; they are
ignored, logged, or kept. -/
inductive Sink where
  | notes (panicsOn : Option String)
  | silent
  | logs
  | keeps
  deriving Repr, DecidableEq

/-- A text stands in another one. -/
def occursIn (part text : String) : Bool := part = "" || 1 < (text.splitOn part).length

/-- The sink panics on a text. -/
def Sink.panics (sink : Sink) (text : String) : Bool :=
  match sink with
  | .notes (some part) => occursIn part text
  | _ => false

/-- What a client is doing. -/
inductive ClientState where
  | free
  | enqueuing
  | idling
  | shutting
  | returned (answer : Answer)
  deriving Repr, DecidableEq

/-- A thread that uses a pool. -/
structure Client where
  name : String
  state : ClientState := .free
  deriving Repr, DecidableEq

/-- A pool whose jobs are errands. Client number `i` is the `i`-th of `clients`; `scripts` holds what
the workers have still to do for their errands, and `budget` bounds the steps that are still to be
made. Notes stand with the newest first. -/
structure Rig where
  play : Play (Job Errand)
  sink : Sink := .notes none
  clients : List Client := [{ name := "main" }]
  scripts : List (Nat × List Action) := []
  released : List Int := []
  started : Nat := 0
  ended : Nat := 0
  running : List Int := []
  notes : List (Thread × Note) := []
  dropping : Bool := false
  budget : Nat := 0

namespace Rig

/-- The pool of the rig. -/
def pool (r : Rig) : Pool (Job Errand) := r.play.pool

/-- The name of a thread. -/
def threadName (r : Rig) (thread : Thread) : String :=
  match thread with
  | .client i => (r.clients[i]?.map (·.name)).getD ""
  | t => (Pool.threadName r.pool.name t).getD ""

/-- The rig with one more note. -/
def note (r : Rig) (thread : Thread) (n : Note) : Rig := { r with notes := (thread, n) :: r.notes }

/-- The rig with another state of a client. -/
def setClient (r : Rig) (i : Nat) (state : ClientState) : Rig :=
  { r with clients := r.clients.modify i fun c => { c with state := state } }

/-- What a worker has still to do for its errand. -/
def script (r : Rig) (worker : Nat) : List Action := (r.scripts.lookup worker).getD []

/-- The rig with another script for a worker. -/
def setScript (r : Rig) (worker : Nat) (actions : List Action) : Rig :=
  { r with scripts := (worker, actions) :: r.scripts.filter fun s => s.1 ≠ worker }

/-- What an event means for the notes: the sink may note a report. -/
def observe (r : Rig) : Event (Job Errand) → Rig
  | .reported thread report =>
    match r.sink with
    | .notes _ => r.note thread (.told report.message)
    | _ => r
  | _ => r

/-- Makes a step, where it is possible. The events of the step come with it. -/
def perform? (r : Rig) (step : Step (Job Errand)) : Option (Rig × List (Event (Job Errand))) :=
  match r.pool.step? step with
  | some (pool, events) =>
    let play := { r.play with pool := pool }.record events
    some (events.foldl observe { r with play := play }, events)
  | none => none

/-- Makes a step, where it is possible. -/
def step? (r : Rig) (step : Step (Job Errand)) : Option Rig := (r.perform? step).map (·.1)

/-! ## Steps from inside -/

/-- A call of a thread returned. For a worker this is a call of its errand. -/
def deliver (r : Rig) (caller : Thread) (answer : Answer) : Rig :=
  match caller with
  | .client i => r.setClient i (.returned answer)
  | .worker i =>
    match r.script i with
    | .call index _ _ :: rest => (r.note caller (.called index answer)).setScript i rest
    | _ => r
  | .dispatch => r

/-- A step of a call that a thread is in. -/
def advanceCall (r : Rig) (caller : Thread) : Option Rig :=
  match r.pool.callStep? caller with
  | none => none
  | some step =>
    (r.step? step).map fun r =>
      match step with
      | .insert _ | .finish _ => r.deliver caller .ok
      | .rollback _ => r.deliver caller (.refused .closed)
      | _ => r

/-- A step of the dispatch loop. -/
def advanceLoop (r : Rig) : Option Rig :=
  (r.pool.loopStep? (r.sink.panics (Report.discarded r.pool.cursor).message)).bind r.step?

/-- The events say that a job entered the queue. -/
def taken : List (Event (Job Errand)) → Bool
  | .accepted _ _ :: _ => true
  | _ :: rest => taken rest
  | [] => false

/-- The next action of a worker for its errand. -/
def act (r : Rig) (i : Nat) : Option Rig :=
  match r.script i with
  | [] => none
  | .begin id endOfStream :: rest =>
    some (({ r with started := r.started + 1, running := id :: r.running }.note (.worker i)
      (.began id endOfStream)).setScript i rest)
  | .await id :: rest => if r.released.contains id then some (r.setScript i rest) else none
  | .call _ mayDrop job :: _ =>
    if r.pool.dropped then some (r.deliver (.worker i) .gone)
    else if mayDrop then
      (r.perform? (.offer (.worker i) job)).map fun s =>
        s.1.deliver (.worker i) (.taken (taken s.2))
    else r.step? (.enqueue (.worker i) job)
  | .stop id outcome :: _ =>
    let panics :=
      match outcome.report? i with
      | some report => r.sink.panics report.message
      | none => false
    { r with ended := r.ended + 1, running := r.running.erase id }.setScript i []
      |>.step? (.conclude i outcome panics)

/-- A step of a worker. It turns to an errand as soon as it has it. -/
def advanceWorker (r : Rig) (i : Nat) : Option Rig :=
  match r.pool.executing? i with
  | some _ => r.act i
  | none =>
    ((r.pool.workerStep? i).bind r.step?).map fun r =>
      match r.pool.executing? i with
      | some t => r.setScript i (t.job.context.actions t.job.endOfStream)
      | none => r

/-- A step of a client: one that waits until the pool is idle may return. -/
def advanceClient (r : Rig) (i : Nat) : Option Rig :=
  match r.clients[i]? with
  | some { state := .idling, .. } =>
    (r.step? (.idle (.client i))).map (·.setClient i (.returned .idle))
  | _ => none

/-- The last user gives the pool up, if nobody is in a call. -/
def advanceDrop (r : Rig) : Option Rig :=
  if r.dropping && r.clients.all (fun c => c.state ≠ .idling) then r.step? .drop else none

/-- A step of whoever can make one. -/
def advance (r : Rig) : Option Rig :=
  (r.pool.waiting.map (·.caller)).findSome? r.advanceCall <|>
    r.advanceLoop <|>
    (List.range r.pool.workerCount).findSome? r.advanceWorker <|>
    (List.range r.clients.length).findSome? r.advanceClient <|>
    (r.pool.shutdowns.map (·.1)).findSome? r.advanceCall <|>
    r.advanceDrop

/-- At most `fuel` steps, until nothing can move. -/
def advanceAll : (fuel : Nat) → Rig → Rig
  | 0, r => r
  | fuel + 1, r =>
    match r.advance with
    | some r => advanceAll fuel r
    | none => r

/-- Steps until nothing can move without outside help. -/
def settle (r : Rig) : Rig := advanceAll r.budget r

/-! ## Making a rig -/

/-- What starting the threads, or shutting them down, may cost in steps. -/
def threadsCost (r : Rig) : Nat := 4 * (r.pool.workerCount + 4)

/-- The rig with more steps to be made. -/
def allow (r : Rig) (steps : Nat) : Rig := { r with budget := r.budget + steps }

/-- A rig around a pool that is not started. -/
def create (c : PoolConfig) (processors : Nat) (sink : Sink) : Except Error Rig :=
  match Pool.create c processors with
  | .error e => .error e
  | .ok pool => .ok { play := { pool := pool }, sink := sink }

/-- A rig around a pool of one worker that was started by the first client. -/
def single (queueCapacity : Nat) (sink : Sink) : Except Error Rig :=
  match Pool.single queueCapacity 0 with
  | .error e => .error e
  | .ok play =>
    let r : Rig := { play := play, sink := sink }
    .ok (r.allow r.threadsCost).settle

/-! ## Calls from outside -/

/-- What an errand may cost in steps, with all that come of it. -/
def errandCost (job : Job Errand) : Nat := 16 * job.context.weight

/-- Makes a step of the first client, where it is possible. -/
def stepped (r : Rig) (step : Step (Job Errand)) : Rig := (r.step? step).getD r

/-- Starts as many threads as there are; the one with number `failAt` fails to start. -/
def spawnAll (failAt : Option Nat) : (count next : Nat) → Rig → Rig
  | 0, _, r => r
  | count + 1, next, r => spawnAll failAt count (next + 1) (r.stepped (.spawn (failAt = some next)))

/-- What the last call that started the threads came to. -/
def startResult (r : Rig) : Except Error Unit :=
  (r.play.history.findSome? fun
    | .startEnded _ result => some result
    | _ => none).getD (.ok ())

/-- Starts the threads. -/
def start (failAt : Option Nat) (r : Rig) : Except Error Unit × Rig :=
  let r := spawnAll failAt (r.pool.workerCount + 1) 0 (r.stepped (.start (.client 0)))
  (r.startResult, (r.allow r.threadsCost).settle)

/-- A client enqueues a job and waits for room. -/
def enqueueAs (client : Nat) (job : Job Errand) (r : Rig) : Rig :=
  (((r.allow (errandCost job)).stepped (.enqueue (.client client) job)).setClient client
    .enqueuing).settle

/-- What the call of a client came to, if it has returned. -/
def answer? (r : Rig) (client : Nat) : Option Answer :=
  match r.clients[client]? with
  | some { state := .returned answer, .. } => some answer
  | _ => none

/-- The first client enqueues a job and waits for room. -/
def enqueue (job : Job Errand) (r : Rig) : Option Answer × Rig :=
  let r := r.enqueueAs 0 job
  (r.answer? 0, r)

/-- The first client enqueues a job if there is room. -/
def offer (job : Job Errand) (r : Rig) : Bool × Rig :=
  match (r.allow (errandCost job)).perform? (.offer (.client 0) job) with
  | some (r, events) => (taken events, r.settle)
  | none => (false, r)

/-- The rig with one more client, and its number. -/
def addClient (name : String) (r : Rig) : Nat × Rig :=
  (r.clients.length, { r with clients := r.clients ++ [{ name }] })

/-- A new client enqueues a job and waits for room. -/
def enqueueBeside (name : String) (job : Job Errand) (r : Rig) : Rig :=
  let (client, r) := r.addClient name
  r.enqueueAs client job

/-- A client waits until the pool is idle. -/
def idleAs (client : Nat) (r : Rig) : Rig := ((r.allow 1).setClient client .idling).settle

/-- The first client waits until the pool is idle. -/
def idle (r : Rig) : Rig := r.idleAs 0

/-- A new client waits until the pool is idle. -/
def idleBeside (name : String) (r : Rig) : Rig :=
  let (client, r) := r.addClient name
  r.idleAs client

/-- The last client with a name. -/
def clientNamed? (r : Rig) (name : String) : Option Client :=
  r.clients.reverse.find? fun c => c.name = name

/-- Closes the queue. -/
def close (r : Rig) : Rig := ((r.allow 1).stepped (.close (.client 0))).settle

/-- Shuts the pool down and joins its threads. -/
def shutDown (r : Rig) : Rig :=
  (((r.allow r.threadsCost).stepped (.shutDown (.client 0))).setClient 0 .shutting).settle

/-- Gives the pool up. The threads go on by themselves. -/
def giveUp (r : Rig) : Rig := { r.allow (r.threadsCost + 1) with dropping := true }.settle

/-- Opens the gates of errands. -/
def release (ids : List Int) (r : Rig) : Rig := { r with released := ids ++ r.released }.settle

/-- Several clients enqueue plain errands, each client `each` of them, taking turns. -/
def produce (threads each : Nat) (r : Rig) : Rig :=
  let (first, r) := (r.clients.length,
    { r with clients := r.clients ++ List.replicate threads { name := "producer" } })
  (List.range each).foldl (fun r (i : Nat) =>
    (List.range threads).foldl (fun r (p : Nat) =>
      r.enqueueAs (first + p) (.ofContext { id := ((p * each + i : Nat) : Int) })) r) r

/-! ## What can be seen -/

/-- The numbers of the errands that are running, in order. -/
def runningIds (r : Rig) : List Int := r.running.mergeSort fun a b => a ≤ b

/-- The numbers of all errands that were begun, in order. -/
def startedIds (r : Rig) : List Int :=
  (r.notes.filterMap fun
    | (_, .began id _) => some id
    | _ => none).mergeSort fun a b => a ≤ b

/-- The texts of the reports, in order, if the sink keeps them. -/
def messages (r : Rig) : List String :=
  match r.sink with
  | .keeps => (r.play.reports.map (·.2.message)).mergeSort fun a b => a ≤ b
  | _ => []

/-- What a thread logged. -/
def log (r : Rig) (thread : Thread) : List (Level × String) :=
  r.play.events fun
    | .logged t entry => if t = thread then some (entry.level, entry.text r.pool.name) else none
    | .reported t report =>
      if t = thread && r.sink = .logs then some (.error, report.message) else none
    | _ => none

/-- All threads of the pool and its clients. -/
def threads (r : Rig) : List Thread :=
  (List.range r.clients.length).map .client ++ (List.range r.pool.workerCount).map .worker ++
    [.dispatch]

/-- The threads that logged something, with what they logged. -/
def logs (r : Rig) : List (String × List (Level × String)) :=
  (r.threads.map fun t => (r.threadName t, r.log t)).filter fun l => !l.2.isEmpty

/-- The threads about which something was noted, with the notes, the oldest first. -/
def noted (r : Rig) : List (String × List Note) :=
  (r.threads.map fun t => (r.threadName t,
    (r.notes.filterMap fun n => if n.1 = t then some n.2 else none).reverse)).filter
    fun n => !n.2.isEmpty

end Rig

end Pool

end BatchPool
