/-!
# Why a pool refuses

* `Pool.Error`: the ways in which building, starting and enqueueing can be refused.
* `Pool.Error.message`: their texts.
-/

namespace BatchPool

namespace Pool

/-- Why a pool refuses a call. -/
inductive Error where
  | noWorkers
  | noCapacity
  | alreadyRunning
  | closed
  | notStarted (thread : String)
  deriving Repr, DecidableEq

/-- The text of a refusal. -/
def Error.message : Error → String
  | .noWorkers => "a dispatcher needs at least one worker"
  | .noCapacity => "the job queue needs a capacity of at least one"
  | .alreadyRunning => "dispatcher is already running"
  | .closed => "dispatcher has been closed"
  | .notStarted thread => "failed to spawn thread " ++ thread

end Pool

end BatchPool
