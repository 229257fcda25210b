import BatchPool.Pool.Step

/-!
# Runs of a pool

* `Play`: a pool with all that happened in it, the newest first.
* `Play.step?`, `Play.run?`: one step, and a list of them.
* `Play.accepted`, `Play.began`, …: what happened, by kind, the oldest first.
-/

namespace BatchPool

namespace Pool

/-- A pool with all that happened in it, the newest first. -/
structure Play (J : Type) where
  pool : Pool J
  history : List (Event J) := []

namespace Play

variable {J : Type}

/-- The play after something happened, given the oldest first. -/
def record (s : Play J) (events : List (Event J)) : Play J :=
  { s with history := events.reverse ++ s.history }

/-- The play after a step, where the step is possible. -/
def step? (s : Play J) (step : Step J) : Option (Play J) :=
  match s.pool.step? step with
  | some (pool, events) => some ({ s with pool := pool }.record events)
  | none => none

/-- The play after a list of steps, where all of them are possible. -/
def run? (s : Play J) : List (Step J) → Option (Play J)
  | [] => some s
  | step :: rest =>
    match s.step? step with
    | some s => s.run? rest
    | none => none

/-! ## What happened -/

/-- What happened, the oldest first, as far as `f` is interested. -/
def events {β : Type} (s : Play J) (f : Event J → Option β) : List β :=
  s.history.reverse.filterMap f

/-- The jobs that entered the queue. -/
def accepted (s : Play J) : List (Ticket J) :=
  s.events fun
    | .accepted _ t => some t
    | _ => none

/-- The jobs that were handed to a worker, with its index. -/
def handed (s : Play J) : List (Nat × Ticket J) :=
  s.events fun
    | .handed i t => some (i, t)
    | _ => none

/-- The jobs that the work function was started on, with the worker's index. -/
def began (s : Play J) : List (Nat × Ticket J) :=
  s.events fun
    | .began i t => some (i, t)
    | _ => none

/-- The jobs that were done, with the worker's index. -/
def ended (s : Play J) : List (Nat × Ticket J) :=
  s.events fun
    | .ended i t _ => some (i, t)
    | _ => none

/-- The reports, with the thread that made them. -/
def reports (s : Play J) : List (Thread × Report) :=
  s.events fun
    | .reported thread report => some (thread, report)
    | _ => none

/-- The log of a thread. -/
def log (s : Play J) (thread : Thread) : List LogEntry :=
  s.events fun
    | .logged t entry => if t = thread then some entry else none
    | _ => none

/-! ## Small facts -/

theorem run?_append (s : Play J) (a b : List (Step J)) :
    s.run? (a ++ b) = (s.run? a).bind fun t => t.run? b := by
  induction a generalizing s with
  | nil => rfl
  | cons step rest ih =>
    simp only [List.cons_append, run?]
    cases s.step? step with
    | none => rfl
    | some t => exact ih t

end Play

end Pool

end BatchPool
