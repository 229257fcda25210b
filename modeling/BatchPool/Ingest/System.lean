import BatchPool.Flow.Run
import BatchPool.Ingest.Line
import BatchPool.Reader

/-!
# An ingest run

Records are read, gathered in groups and summarised by a pool, and the summaries are written by a
pool of one worker. If all of the input could be read, the totals are written at the end.

* `Ingest.commands`: what the reading thread does for an input.
* `Ingest.start`: the flow before its threads are started.
* `Ingest.run`: the lines of a run, or why it failed.
-/

namespace BatchPool

namespace Ingest

/-- What the reading thread does for records, with the totals if the input was complete. -/
def commands (records : List Record) (complete : Bool) : List (Command Record) :=
  [.startWriter, .startPool] ++ records.map .push ++ [.flush, .idlePool] ++
    (if complete then [.last] else []) ++ [.shutPool, .shutWriter]

/-- The flow for records before its threads are started, on a machine with the given number of
processors. Both pools have the same capacity. -/
def start (c : IngestConfig) (processors : Nat) (records : List Record) (complete : Bool) :
    Except Pool.Error (Flow Record Counters Line) :=
  Flow.create c.batch.size c.pool processors c.pool.queueCapacity {} (commands records complete)

/-- The reading thread was refused a call. -/
def refused (f : Flow Record Counters Line) : Bool :=
  f.feed.play.history.any fun
    | .rejected (.client 0) _ => true
    | _ => false

/-- What a run comes to: its lines, and why the input could not be read to its end. -/
structure Result where
  lines : List Line
  malformed : Option Failure

/-- Runs a flow to its end. A run whose reading thread was refused a call fails as a whole. -/
def finish (f : Flow Record Counters Line) (malformed : Option Failure) : Except Failure Result :=
  let f := f.finish plan 2
  if refused f then .error { cause := .pool .closed }
  else .ok { lines := f.lines, malformed := malformed }

/-- Runs over an input. -/
def run (c : IngestConfig) (processors : Nat) (input : Reader) : Except Failure Result :=
  let reading := input.readAll
  match start c processors reading.records reading.failure.isNone with
  | .error e => .error { cause := .pool e }
  | .ok f => finish f reading.failure

end Ingest

end BatchPool
