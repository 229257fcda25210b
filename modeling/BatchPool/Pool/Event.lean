import BatchPool.Pool.Basic

/-!
# What happens in a pool

* `Report`: what the sink of a pool is told about a job.
* `LogEntry`: what a pool logs, with its level and text.
* `Event`: all that happens, including both.
-/

namespace BatchPool

/-- What is told about a job: it failed or panicked in a worker, or it was discarded because the
worker whose turn it was is gone. -/
inductive Report where
  | failed (worker : Nat) (failure : Failure)
  | panicked (worker : Nat) (text : Option String)
  | discarded (worker : Nat)

/-- The text of a report. -/
def Report.message : Report → String
  | .failed worker failure => "worker " ++ toString worker ++ ": job failed: " ++ failure.full
  | .panicked worker text =>
    "worker " ++ toString worker ++ ": job panicked: " ++ Outcome.panicText text
  | .discarded worker => "worker " ++ toString worker ++ " is gone, job discarded"

/-- What is to be reported about a job that a worker has done. -/
def Outcome.report? (worker : Nat) : Outcome → Option Report
  | .done => none
  | .failed failure => some (.failed worker failure)
  | .panicked text => some (.panicked worker text)

/-- The report that a worker makes about an outcome. There is none about a job that is done. -/
inductive Outcome.Reports (worker : Nat) : Outcome → Report → Prop where
  | failed (failure : Failure) : Reports worker (.failed failure) (.failed worker failure)
  | panicked (text : Option String) : Reports worker (.panicked text) (.panicked worker text)

theorem Outcome.report?_eq_some_iff {worker : Nat} {outcome : Outcome} {report : Report} :
    outcome.report? worker = some report ↔ outcome.Reports worker report := by
  constructor
  · intro h
    cases outcome <;> cases h
    · exact .failed _
    · exact .panicked _
  · rintro (_ | _) <;> rfl

/-- A worker is silent about a job that is done, and about no other. -/
theorem Outcome.report?_eq_none_iff {worker : Nat} {outcome : Outcome} :
    outcome.report? worker = none ↔ outcome = .done := by
  cases outcome <;> simp [Outcome.report?]

/-- How important a log entry is. -/
inductive Level where
  | error
  | warn
  | info
  | debug
  deriving Repr, DecidableEq

/-- The name of a level. -/
def Level.name : Level → String
  | .error => "ERROR"
  | .warn => "WARN"
  | .info => "INFO"
  | .debug => "DEBUG"

/-- What a pool logs. -/
inductive LogEntry where
  | started (workers : Nat)
  | notStarted (error : Pool.Error)
  | rejected
  | closed
  | threadPanicked
  | finished
  | loopStarted
  | loopEnded
  | workerStarted (index : Nat)
  | workerStopped (index : Nat)
  deriving Repr, DecidableEq

namespace LogEntry

/-- The level of an entry. -/
def level : LogEntry → Level
  | .started _ | .finished => .info
  | .notStarted _ | .rejected | .threadPanicked => .warn
  | .closed | .loopStarted | .loopEnded | .workerStarted _ | .workerStopped _ => .debug

/-- The text of an entry in the log of a pool with the given name. -/
def text (name : String) : LogEntry → String
  | .started workers =>
    "Started dispatcher " ++ name ++ " with " ++ toString workers ++ " workers"
  | .notStarted error => "Dispatcher " ++ name ++ " failed to start: " ++ error.message
  | .rejected => "Dispatcher " ++ name ++ " is closed, job rejected"
  | .closed => "Dispatcher " ++ name ++ " closed"
  | .threadPanicked => "A thread of dispatcher " ++ name ++ " panicked"
  | .finished => "Dispatcher " ++ name ++ " finished"
  | .loopStarted => "Dispatch loop started"
  | .loopEnded => "Dispatch loop ended, job queue closed"
  | .workerStarted index => "Worker " ++ toString index ++ " started"
  | .workerStopped index => "Worker " ++ toString index ++ " stopped"

end LogEntry

namespace Pool

/-- What happens in a pool. A job is completed when it stops being in flight; it is lost when the
report about it kills the thread that had it, and then it stays in flight. -/
inductive Event (J : Type) where
  | accepted (caller : Thread) (ticket : Ticket J)
  | rejected (caller : Thread) (job : J)
  | overflowed (caller : Thread) (job : J)
  | startEnded (caller : Thread) (result : Except Error Unit)
  | shutdownEnded (caller : Thread)
  | idle (caller : Thread)
  | handed (worker : Nat) (ticket : Ticket J)
  | began (worker : Nat) (ticket : Ticket J)
  | ended (worker : Nat) (ticket : Ticket J) (outcome : Outcome)
  | discarded (worker : Nat) (ticket : Ticket J)
  | reported (thread : Thread) (report : Report)
  | completed (thread : Thread) (ticket : Ticket J)
  | lost (thread : Thread) (ticket : Ticket J)
  | logged (thread : Thread) (entry : LogEntry)

end Pool

end BatchPool
