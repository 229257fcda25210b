import BatchPool.Flow.Basic
import BatchPool.Proofs.Feed.Runs

/-!
# What a step of a flow can do

* `Flow.Moves`: the moves of the threads of a flow, with all that holds before each.
* `Flow.Moves.of_step?`: a step that is possible is such a move.
* `Flow.run_induction`: what every move keeps holds after every run.
* `Flow.Moves.feed_cases`, `Flow.Moves.writer_cases`: the steps that it makes in its feed and in its
  writer.
-/

namespace BatchPool

variable {R S L : Type}

/-- If the step is a call of the batch, it is one of the reading thread. -/
def Feed.Step.Read : Feed.Step R → Prop
  | .push t _ | .flush t | .enter t => t = 0
  | .pool _ => True

namespace Flow

/-- The reading thread is in no call. -/
structure AtCommand (f : Flow R S L) : Prop where
  unheld : ∀ group rest, f.feed.calls.stack 0 ≠ .holding () group :: rest
  pool : f.feed.pool.callStep? (.client 0) = none
  writer : f.writer.pool.callStep? (.client 0) = none

/-- The moves of a flow. -/
inductive Moves (plan : Plan R S L) (f : Flow R S L) : Actor → Flow R S L → Prop where
  /-- The reading thread begins with a command. -/
  | command {command : Command R} {rest : List (Command R)} {g : Flow R S L} (free : f.AtCommand)
      (commands : f.commands = command :: rest) (begun : f.begin? command = some g) :
    Moves plan f .reader { g with commands := rest }
  /-- Its handler is called. -/
  | enter {group : List R} {rest : List (Batch.Frame R Unit)} {feed : Feed R}
      (holding : f.feed.calls.stack 0 = .holding () group :: rest)
      (moved : f.feed.step? (.enter 0) = some feed) :
    Moves plan f .reader { f with feed := feed }
  /-- It goes on with a call of the pool. -/
  | call {step : Pool.Step (Job (List R))} {feed : Feed R}
      (next : f.feed.pool.callStep? (.client 0) = some step)
      (moved : f.feed.step? (.pool step) = some feed) :
    Moves plan f .reader ({ f with feed := feed }.afterCall plan step)
  /-- It goes on with a call of the writer. -/
  | writerCall {step : Pool.Step (Job L)} {writer : Pool.Play (Job L)}
      (next : f.writer.pool.callStep? (.client 0) = some step)
      (moved : f.writer.step? step = some writer) :
    Moves plan f .reader { f with writer := writer }
  /-- The loop of the pool. -/
  | dispatch {step : Pool.Step (Job (List R))} {feed : Feed R}
      (next : f.feed.pool.loopStep? false = some step)
      (moved : f.feed.step? (.pool step) = some feed) :
    Moves plan f .dispatch { f with feed := feed }
  /-- A worker does a step on what the workers share. -/
  | act {i : Nat} {t : Ticket (Job (List R))} {act : S → Task S L × S}
      (executing : f.feed.pool.executing? i = some t) (task : f.task? i = some (.act act)) :
    Moves plan f (.worker i)
      ({ f with shared := (act f.shared).2 }.setTask i (act f.shared).1)
  /-- A worker calls the writer. -/
  | ask {i : Nat} {t : Ticket (Job (List R))} {line : L} {writer : Pool.Play (Job L)}
      (executing : f.feed.pool.executing? i = some t) (task : f.task? i = some (.call line))
      (free : f.writer.pool.callStep? (.client (i + 1)) = none)
      (moved : f.writer.step? (.enqueue (.client (i + 1)) (.ofContext line)) = some writer) :
    Moves plan f (.worker i) { f with writer := writer }
  /-- A worker goes on with its call of the writer. -/
  | wait {i : Nat} {t : Ticket (Job (List R))} {line : L} {step : Pool.Step (Job L)}
      {writer : Pool.Play (Job L)} (executing : f.feed.pool.executing? i = some t)
      (task : f.task? i = some (.call line))
      (next : f.writer.pool.callStep? (.client (i + 1)) = some step)
      (moved : f.writer.step? step = some writer) :
    Moves plan f (.worker i) ({ f with writer := writer }.afterWrite i step)
  /-- The work function of a worker ends. -/
  | conclude {i : Nat} {t : Ticket (Job (List R))} {outcome : Outcome} {feed : Feed R}
      (executing : f.feed.pool.executing? i = some t) (task : f.task? i = some (.stop outcome))
      (moved : f.feed.step? (.pool (.conclude i outcome false)) = some feed) :
    Moves plan f (.worker i) ({ f with feed := feed }.endTask i)
  /-- A worker takes a job. -/
  | receive {i : Nat} {t : Ticket (Job (List R))} {step : Pool.Step (Job (List R))} {feed : Feed R}
      (free : f.feed.pool.executing? i = none) (next : f.feed.pool.workerStep? i = some step)
      (moved : f.feed.step? (.pool step) = some feed) (taken : feed.pool.executing? i = some t) :
    Moves plan f (.worker i) ({ f with feed := feed }.setTask i (plan.task i t.job))
  /-- A worker does something between two jobs. -/
  | work {i : Nat} {step : Pool.Step (Job (List R))} {feed : Feed R}
      (free : f.feed.pool.executing? i = none) (next : f.feed.pool.workerStep? i = some step)
      (moved : f.feed.step? (.pool step) = some feed) (free' : feed.pool.executing? i = none) :
    Moves plan f (.worker i) { f with feed := feed }
  /-- The loop of the writer. -/
  | writerDispatch {step : Pool.Step (Job L)} {writer : Pool.Play (Job L)}
      (next : f.writer.pool.loopStep? false = some step)
      (moved : f.writer.step? step = some writer) :
    Moves plan f .writerDispatch { f with writer := writer }
  /-- A line is written. -/
  | write {t : Ticket (Job L)} {writer : Pool.Play (Job L)}
      (executing : f.writer.pool.executing? 0 = some t)
      (moved : f.writer.step? (.conclude 0 (plan.write t.job.context) false) = some writer) :
    Moves plan f .writer ({ f with writer := writer }.afterLine t.job.context
      (plan.write t.job.context))
  /-- The writer does something between two lines. -/
  | writerWork {step : Pool.Step (Job L)} {writer : Pool.Play (Job L)}
      (free : f.writer.pool.executing? 0 = none) (next : f.writer.pool.workerStep? 0 = some step)
      (moved : f.writer.step? step = some writer) :
    Moves plan f .writer { f with writer := writer }

variable {plan : Plan R S L} {f g : Flow R S L} {actor : Actor}

theorem Moves.of_readerStep? (h : f.readerStep? plan = some g) : Moves plan f .reader g := by
  unfold readerStep? at h
  split at h
  · next group rest holding =>
    obtain ⟨feed, moved, rfl⟩ := Option.map_eq_some_iff.1 h
    exact .enter holding moved
  · next unheld =>
    split at h
    · next step next =>
      obtain ⟨g, hg, rfl⟩ := Option.map_eq_some_iff.1 h
      obtain ⟨feed, moved, rfl⟩ := Option.map_eq_some_iff.1 hg
      exact .call next moved
    · next pool =>
      split at h
      · next step next =>
        obtain ⟨writer, moved, rfl⟩ := Option.map_eq_some_iff.1 h
        exact .writerCall next moved
      · next writer =>
        split at h
        · cases h
        · next command rest commands =>
          obtain ⟨g, begun, rfl⟩ := Option.map_eq_some_iff.1 h
          exact .command ⟨fun group rest => unheld () group rest, pool, writer⟩ commands begun

theorem Moves.of_workerStep? {i : Nat} (h : f.workerStep? plan i = some g) :
    Moves plan f (.worker i) g := by
  unfold workerStep? at h
  split at h
  · next t executing =>
    obtain ⟨task, htask, h⟩ := Option.bind_eq_some_iff.1 h
    cases task with
    | act act => cases h; exact .act executing htask
    | call line =>
      simp only [taskStep?] at h
      split at h
      · next step next =>
        obtain ⟨g, hg, rfl⟩ := Option.map_eq_some_iff.1 h
        obtain ⟨writer, moved, rfl⟩ := Option.map_eq_some_iff.1 hg
        exact .wait executing htask next moved
      · next free =>
        obtain ⟨writer, moved, rfl⟩ := Option.map_eq_some_iff.1 h
        exact .ask executing htask free moved
    | stop outcome =>
      obtain ⟨g, hg, rfl⟩ := Option.map_eq_some_iff.1 h
      obtain ⟨feed, moved, rfl⟩ := Option.map_eq_some_iff.1 hg
      exact .conclude executing htask moved
  · next free =>
    obtain ⟨g, hg, rfl⟩ := Option.map_eq_some_iff.1 h
    obtain ⟨step, next, hg⟩ := Option.bind_eq_some_iff.1 hg
    obtain ⟨feed, moved, rfl⟩ := Option.map_eq_some_iff.1 hg
    split
    · next t taken => exact .receive free next moved taken
    · next free' => exact .work free next moved free'

theorem Moves.of_writeStep? (h : f.writeStep? plan = some g) : Moves plan f .writer g := by
  unfold writeStep? at h
  split at h
  · next t executing =>
    obtain ⟨g, hg, rfl⟩ := Option.map_eq_some_iff.1 h
    obtain ⟨writer, moved, rfl⟩ := Option.map_eq_some_iff.1 hg
    exact .write executing moved
  · next free =>
    obtain ⟨step, next, hg⟩ := Option.bind_eq_some_iff.1 h
    obtain ⟨writer, moved, rfl⟩ := Option.map_eq_some_iff.1 hg
    exact .writerWork free next moved

/-- A step that is possible is one of these. -/
theorem Moves.of_step? (h : f.step? plan actor = some g) : Moves plan f actor g := by
  cases actor with
  | reader => exact .of_readerStep? h
  | dispatch =>
    obtain ⟨step, next, hg⟩ := Option.bind_eq_some_iff.1 h
    obtain ⟨feed, moved, rfl⟩ := Option.map_eq_some_iff.1 hg
    exact .dispatch next moved
  | worker i => exact .of_workerStep? h
  | writerDispatch =>
    obtain ⟨step, next, hg⟩ := Option.bind_eq_some_iff.1 h
    obtain ⟨writer, moved, rfl⟩ := Option.map_eq_some_iff.1 hg
    exact .writerDispatch next moved
  | writer => exact .of_writeStep? h

/-! ## The feed and the writer -/

/-- The pools of a flow move by steps, or stay as they are. -/
theorem Moves.feed_cases (hm : Moves plan f actor g) :
    g.feed = f.feed ∨ ∃ step, f.feed.step? step = some g.feed ∧ step.Read := by
  cases hm with
  | @command command _ _ _ _ begun =>
    cases command with
    | startWriter | idleWriter | shutWriter =>
      obtain ⟨writer, -, rfl⟩ := Option.map_eq_some_iff.1 begun
      exact .inl rfl
    | push | flush =>
      obtain ⟨feed, moved, rfl⟩ := Option.map_eq_some_iff.1 begun
      exact .inr ⟨_, moved, rfl⟩
    | _ =>
      obtain ⟨feed, moved, rfl⟩ := Option.map_eq_some_iff.1 begun
      exact .inr ⟨.pool _, moved, trivial⟩
  | @call step feed _ moved =>
    have same : ({ f with feed := feed }.afterCall plan step).feed = feed := by
      unfold afterCall
      split
      · split <;> rfl
      · rfl
    exact .inr ⟨.pool _, same ▸ moved, trivial⟩
  | enter _ moved => exact .inr ⟨_, moved, rfl⟩
  | dispatch _ moved | conclude _ _ moved | receive _ _ moved | work _ _ moved =>
    exact .inr ⟨.pool _, moved, trivial⟩
  | act | ask | writerCall | writerDispatch | writerWork => exact .inl rfl
  | wait =>
    unfold afterWrite
    split <;> exact .inl rfl
  | write =>
    unfold afterLine
    split <;> exact .inl rfl

theorem Moves.writer_cases (hm : Moves plan f actor g) :
    g.writer = f.writer ∨ ∃ step, f.writer.step? step = some g.writer := by
  cases hm with
  | @command command _ _ _ _ begun =>
    cases command with
    | startWriter | idleWriter | shutWriter =>
      obtain ⟨writer, moved, rfl⟩ := Option.map_eq_some_iff.1 begun
      exact .inr ⟨_, moved⟩
    | _ =>
      obtain ⟨feed, -, rfl⟩ := Option.map_eq_some_iff.1 begun
      exact .inl rfl
  | call =>
    unfold afterCall
    split
    · split <;> exact .inl rfl
    · exact .inl rfl
  | enter | dispatch | conclude | receive | work | act => exact .inl rfl
  | ask _ _ _ moved | writerCall _ moved | writerDispatch _ moved | writerWork _ _ moved =>
    exact .inr ⟨_, moved⟩
  | wait _ _ _ moved =>
    unfold afterWrite
    split <;> exact .inr ⟨_, moved⟩
  | write _ moved =>
    unfold afterLine
    split <;> exact .inr ⟨_, moved⟩

/-! ## Runs -/

/-- What holds of a flow at its start and is kept by every move holds after every run. -/
theorem run_induction {motive : Flow R S L → Prop} (base : motive f)
    (next : ∀ g actor h, motive g → Moves plan g actor h → motive h) {actors : List Actor}
    (hr : f.run? plan actors = some g) : motive g := by
  induction actors generalizing f with
  | nil =>
    cases hr
    exact base
  | cons actor rest ih =>
    simp only [run?] at hr
    split at hr
    · next h hh => exact ih (next f actor h base (.of_step? hh)) hr
    · cases hr

theorem run?_append (f : Flow R S L) (actors more : List Actor) :
    f.run? plan (actors ++ more) = (f.run? plan actors).bind fun g => g.run? plan more := by
  induction actors generalizing f with
  | nil => rfl
  | cons actor rest ih =>
    simp only [List.cons_append, run?]
    cases f.step? plan actor with
    | none => rfl
    | some g => exact ih g

end Flow

end BatchPool
