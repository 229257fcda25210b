import BatchPool.Flow.Basic

/-!
# Running a flow

* `Flow.advance`: a step of the first thread that can move.
* `Flow.finish`: steps until no thread can move.
-/

namespace BatchPool

namespace Flow

variable {R S L : Type}

/-- The threads of a flow, the reading thread last, so that what it waits for comes first. -/
def actors (f : Flow R S L) : List Actor :=
  .writer :: .writerDispatch :: (List.range f.feed.pool.workerCount).map .worker ++
    [.dispatch, .reader]

/-- A step of the first thread that can move. -/
def advance (plan : Plan R S L) (f : Flow R S L) : Option (Flow R S L) :=
  f.actors.findSome? (f.step? plan)

/-- At most `fuel` steps, until no thread can move. -/
def advanceAll (plan : Plan R S L) : (fuel : Nat) → Flow R S L → Flow R S L
  | 0, f => f
  | fuel + 1, f =>
    match f.advance plan with
    | some f => advanceAll plan fuel f
    | none => f

/-- How many steps a flow can take whose tasks have at most `taskLength` steps: a command makes at
most one job of the pool, and that one job of the writer; every thread starts and stops. -/
def stepBound (taskLength : Nat) (f : Flow R S L) : Nat :=
  (f.commands.length + 1) * (taskLength + 32) + 8 * (f.feed.pool.workerCount + 4)

/-- Steps until no thread can move. -/
def finish (plan : Plan R S L) (taskLength : Nat) (f : Flow R S L) : Flow R S L :=
  advanceAll plan (f.stepBound taskLength) f

end Flow

end BatchPool
