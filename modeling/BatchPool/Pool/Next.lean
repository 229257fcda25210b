import BatchPool.Pool.Run

/-!
# What a thread of a pool does next

The threads of a pool have no choice: where a thread stands says which step it makes next. Whether
that step is possible is another question.

* `Pool.callStep?`: the next step of a thread that is in the middle of a call.
* `Pool.loopStep?`: the next step of the dispatch loop.
* `Pool.workerStep?`: the next step of a worker, as far as it is not up to the work function.
* `Pool.Step.beginner?`: the thread that begins a call by a step.
-/

namespace BatchPool

namespace Pool

variable {J : Type}

/-- The next step of a thread that is in the middle of a call. -/
def callStep? (p : Pool J) (caller : Thread) : Option (Step J) :=
  match p.waitingOf? caller with
  | some c =>
    if c.refused then some (.rollback caller)
    else if p.closed then some (.refuse caller)
    else some (.insert caller)
  | none =>
    match p.shutdownOf? caller with
    | some .retiring => some (.retire caller)
    | some .collecting => some (.collect caller)
    | some (.joining []) => some (.finish caller)
    | some (.joining _) => some (.join caller)
    | none =>
      match p.lifecycle with
      | .starting c _ => if c = caller then some (.spawn false) else none
      | _ => none

/-- The next step of the dispatch loop. `panics` says whether the report of a discarded job kills
it. -/
def loopStep? (p : Pool J) (panics : Bool) : Option (Step J) :=
  match p.loop with
  | .receiving => some .take
  | .holding _ => some .claim
  | .handing _ => some .hand
  | .discarding _ => some (.discard panics)
  | .settling _ => some .settle
  | .unborn | .stopped | .dead _ => none

/-- The next step of a worker that is not executing a job. -/
def workerStep? (p : Pool J) (i : Nat) : Option (Step J) :=
  match p.workers[i]? with
  | some { phase := .announcing, .. } => some (.announce i)
  | some { phase := .listening, .. } => some (.receive i)
  | some { phase := .settling _, .. } => some (.complete i)
  | _ => none

/-- The job that a worker is executing. -/
def executing? (p : Pool J) (i : Nat) : Option (Ticket J) :=
  match p.workers[i]? with
  | some { phase := .executing t, .. } => some t
  | _ => none

/-- The thread that begins a call by a step. -/
def Step.beginner? : Step J → Option Thread
  | .enqueue c _ | .offer c _ | .close c | .start c | .shutDown c | .idle c => some c
  | _ => none

end Pool

end BatchPool
