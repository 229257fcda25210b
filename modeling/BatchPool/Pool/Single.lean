import BatchPool.Pool.Run

/-!
# Pools of one worker

A running pool with exactly one worker runs its work function beside its callers, but never beside
itself.

* `Pool.single`: such a pool, with its worker and its loop started.
-/

namespace BatchPool

namespace Pool

variable {J : Type}

/-- The configuration of a pool of one worker. -/
def singleConfig (queueCapacity : Nat) : PoolConfig where
  queueCapacity := queueCapacity
  workerCount := some 1
  threadName := "workpool-mutex-fn"

/-- The steps by which a client starts a pool of one worker. -/
def singleStart (client : Nat) : List (Step J) :=
  [.start (.client client), .spawn false, .spawn false]

/-- A pool of one worker, started by the given client. -/
def single (queueCapacity : Nat) (client : Nat) : Except Error (Play J) :=
  match create (singleConfig queueCapacity) 1 with
  | .error e => .error e
  | .ok p =>
    match Play.run? { pool := p } (singleStart client) with
    | some s => .ok s
    | none => .error .alreadyRunning

/-- A pool of one worker as it is shown in messages. -/
def debugSingle (p : Pool J) : String := "MutexFunction \x7b dispatcher: " ++ p.debug ++ " \x7d"

/-- Only the capacity of the queue can be refused. -/
theorem single_eq_error_iff (queueCapacity client : Nat) (e : Error) :
    (single queueCapacity client : Except Error (Play J)) = .error e ↔
      queueCapacity = 0 ∧ e = .noCapacity := by
  by_cases hq : queueCapacity = 0
  · subst hq
    simp [single, create, singleConfig, PoolConfig.workers, eq_comm]
  · simp [single, create, singleConfig, PoolConfig.workers, hq, singleStart, Play.run?, Play.step?,
      Pool.step?, Pool.start, Pool.mayCall, Pool.busy, Pool.spawn, Pool.startThread, Pool.setWorker,
      Play.record]

end Pool

end BatchPool
