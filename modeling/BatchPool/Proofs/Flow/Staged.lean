import BatchPool.Proofs.Flow.Guided
import BatchPool.Proofs.Flow.Work

/-!
# A flow in the phases of its reading thread

The reading thread leads both pools: it starts them, and it shuts the pool down before the writer. So
no call is refused, and the writer gets the lines of the workers while it is open.

* `Flow.Staged`: what holds of a flow in a phase of its reading thread. `Staged.next`: every step of
  the flow keeps it, and is a move of its work.
* `Flow.Returned`: the reading thread is done.
* `Staged.of_returned`: then the workers were started on all groups, and all their lines are written.
-/

namespace BatchPool

namespace Flow

open scoped List

variable {R S L : Type}

/-! ## What holds in a phase -/

/-- What holds of a flow in a phase of its reading thread. -/
structure Staged (batchSize : Nat) (p : Pool (Job (List R))) (w : Pool (Job L)) (records : List R)
    (complete : Bool) (phase : Phase R) (f : Flow R S L) : Prop where
  commands : f.commands = phase.commands complete
  asks : phase.order = 4 → complete = true
  feed : Feed.Guided batchSize p records complete phase f.feed
  writer : Pool.Play.Steered w (.client 0) (decide (1 ≤ phase.order)) (decide (7 ≤ phase.order))
    f.writer
  /-- The writer is closed when no worker is left. -/
  exited : 7 ≤ phase.order → f.feed.pool.Exited
  /-- Only workers call the writer, each with the line that it is at. -/
  asked : ∀ c ∈ f.writer.pool.waiting, f.work.Asks c.caller c.job
  /-- The writer has written the lines that it is done with. -/
  lines : f.lines = f.writer.conclusions.map (·.1.job.context)

variable {batchSize : Nat} {p : Pool (Job (List R))} {w : Pool (Job L)} {records : List R}
  {complete : Bool} {phase phase' : Phase R} {plan : Plan R S L} {f g : Flow R S L} {actor : Actor}

/-- A worker at work finds the writer open. -/
theorem Staged.unclosed (h : Staged batchSize p w records complete phase f) {i : Nat}
    {t : Ticket (Job (List R))} (executing : f.feed.pool.executing? i = some t) :
    f.writer.pool.closed = false := by
  rw [h.writer.closed_eq, decide_eq_false_iff_not]
  intro late
  rw [(h.exited late).executing?_eq] at executing
  cases executing

/-- No call of the reading thread waits at the writer. -/
theorem Staged.not_waiting (h : Staged batchSize p w records complete phase f)
    {c : Pool.Waiting (Job L)} (hc : c ∈ f.writer.pool.waiting) : c.caller ≠ .client 0 := by
  obtain ⟨i, line, t, caller, -⟩ := h.asked c hc
  simp [caller]

/-! ## Steps of the feed -/

/-- A step of the feed, with the move of the work that it is. -/
theorem Staged.feed_next {step : Feed.Step R} (h : Staged batchSize p w records complete phase f)
    (fresh : p.Fresh) (goes : Phase.Goes complete phase step phase')
    (moved : f.feed.step? step = some g.feed) (writer : g.writer = f.writer)
    (commands : g.commands = phase'.commands complete) (written : g.written = f.written)
    (hw : Work.Moves plan f.work g.work) : Staged batchSize p w records complete phase' g where
  commands := commands
  asks := goes.asks h.asks
  feed := h.feed.next goes moved fresh
  writer := by
    rw [writer, goes.writer_started, goes.writer_closed]
    exact h.writer
  exited := fun late =>
    h.feed.exited_next fresh moved (h.exited (of_decide_eq_true
      (goes.writer_closed ▸ decide_eq_true late)))
  asked := fun c hc => by
    rw [writer] at hc
    exact hw.asks (h.asked c hc) (by simp [work, writer])
  lines := by
    rw [show g.lines = f.lines from congrArg List.reverse written, writer]
    exact h.lines

/-- A step of the feed that changes nothing about who is at work. -/
theorem Staged.feed_still (plan : Plan R S L) {step : Feed.Step R} {feed : Feed R}
    (h : Staged batchSize p w records complete phase f) (fresh : p.Fresh)
    (goes : Phase.Goes complete phase step phase') (moved : f.feed.step? step = some feed)
    (quiet : feed.pool.executing? = f.feed.pool.executing? ∧ feed.play.began = f.feed.play.began) :
    Staged batchSize p w records complete phase'
        { f with feed := feed, commands := phase'.commands complete } ∧
      Work.Moves plan f.work { f with feed := feed, commands := phase'.commands complete }.work := by
  have same : { f with feed := feed, commands := phase'.commands complete }.work = f.work := by
    rw [work, work, quiet.1, quiet.2]
  have hw : Work.Moves plan f.work
      { f with feed := feed, commands := phase'.commands complete }.work := same ▸ .still
  exact ⟨h.feed_next fresh goes moved rfl rfl rfl hw, hw⟩

/-- A worker takes a job. -/
theorem Staged.receive {i : Nat} {t : Ticket (Job (List R))} {step : Pool.Step (Job (List R))}
    {feed : Feed R} (h : Staged batchSize p w records complete phase f) (fresh : p.Fresh)
    (free : f.feed.pool.executing? i = none) (next : f.feed.pool.workerStep? i = some step)
    (moved : f.feed.step? (.pool step) = some feed) (taken : feed.pool.executing? i = some t) :
    Staged batchSize p w records complete phase
        ({ f with feed := feed }.setTask i (plan.task i t.job)) ∧
      Work.Moves plan f.work ({ f with feed := feed }.setTask i (plan.task i t.job)).work := by
  obtain ⟨continues, -, own⟩ := Pool.workerStep?_continues next
  have hw : Work.Moves plan f.work
      ({ f with feed := feed }.setTask i (plan.task i t.job)).work := by
    obtain ⟨executing, -⟩ | ⟨j, u, mine, -, executing, began⟩ | ⟨j, outcome, panics, mine, -⟩ :=
      h.feed.work_cases fresh moved
    · rw [executing, free] at taken
      cases taken
    · cases mine
      obtain this | this | this := own <;> cases this
      rw [executing, Function.update_self] at taken
      cases taken
      have same : ({ f with feed := feed }.setTask i (plan.task i t.job)).work =
          { f.work with
            executing := Function.update f.work.executing i (some t)
            began := f.work.began ++ [t.job] }.setTask i (plan.task i t.job) := by
        simp [work, setTask, Work.setTask, executing, began]
      exact same ▸ .receive free
    · cases mine
      obtain this | this | this := own <;> cases this
  exact ⟨h.feed_next fresh (.continues phase continues) moved rfl h.commands rfl hw, hw⟩

/-- A worker does something between two jobs. -/
theorem Staged.between {i : Nat} {step : Pool.Step (Job (List R))} {feed : Feed R}
    (h : Staged batchSize p w records complete phase f) (fresh : p.Fresh)
    (next : f.feed.pool.workerStep? i = some step) (moved : f.feed.step? (.pool step) = some feed)
    (free : feed.pool.executing? i = none) :
    Staged batchSize p w records complete phase { f with feed := feed } ∧
      Work.Moves plan f.work { f with feed := feed }.work := by
  obtain ⟨continues, -, own⟩ := Pool.workerStep?_continues next
  have quiet : feed.pool.executing? = f.feed.pool.executing? ∧
      feed.play.began = f.feed.play.began := by
    obtain ⟨executing, began, -⟩ | ⟨j, u, mine, -, executing, -⟩ | ⟨j, outcome, panics, mine, -⟩ :=
      h.feed.work_cases fresh moved
    · exact ⟨executing, began⟩
    · cases mine
      obtain this | this | this := own <;> cases this
      rw [executing, Function.update_self] at free
      cases free
    · cases mine
      obtain this | this | this := own <;> cases this
  have next := h.feed_still plan fresh (.continues phase continues) moved quiet
  rwa [← h.commands] at next

/-- A worker ends. -/
theorem Staged.conclude {i : Nat} {outcome : Outcome} {feed : Feed R}
    (h : Staged batchSize p w records complete phase f) (fresh : p.Fresh)
    (task : f.task? i = some (.stop outcome))
    (moved : f.feed.step? (.pool (.conclude i outcome false)) = some feed) :
    Staged batchSize p w records complete phase ({ f with feed := feed }.endTask i) ∧
      Work.Moves plan f.work ({ f with feed := feed }.endTask i).work := by
  have hw : Work.Moves plan f.work ({ f with feed := feed }.endTask i).work := by
    obtain ⟨-, -, other⟩ | ⟨j, u, mine, -⟩ | ⟨j, outcome, panics, mine, executing, began⟩ :=
      h.feed.work_cases fresh moved
    · exact absurd rfl (other _ _ _)
    · cases mine
    · cases mine
      have same : ({ f with feed := feed }.endTask i).work =
          { f.work with executing := Function.update f.work.executing i none }.endTask i := by
        simp [work, endTask, Work.endTask, executing, began]
      exact same ▸ .conclude task
  exact ⟨h.feed_next fresh (.continues phase rfl) moved rfl h.commands rfl hw, hw⟩

/-- A worker does a step on what the workers share. -/
theorem Staged.act {i : Nat} {act : S → Task S L × S}
    (h : Staged batchSize p w records complete phase f) (task : f.task? i = some (.act act)) :
    Staged batchSize p w records complete phase
        ({ f with shared := (act f.shared).2 }.setTask i (act f.shared).1) ∧
      Work.Moves plan f.work
        ({ f with shared := (act f.shared).2 }.setTask i (act f.shared).1).work := by
  have hw : Work.Moves plan f.work
      ({ f with shared := (act f.shared).2 }.setTask i (act f.shared).1).work :=
    .act (v := f.work) task
  exact ⟨{ h with asked := fun c hc => hw.asks (h.asked c hc) rfl }, hw⟩

/-! ## Steps of the writer -/

/-- A step of the writer that is no call keeps what its callers ask for. -/
theorem Staged.asked_next {step : Pool.Step (Job L)} {writer : Pool.Play (Job L)}
    (h : Staged batchSize p w records complete phase f) (moved : f.writer.step? step = some writer)
    (new : ∀ caller job, step = .enqueue caller job → f.work.Asks caller job) :
    ∀ c ∈ writer.pool.waiting, f.work.Asks c.caller c.job ∧ step ≠ .insert c.caller := by
  intro c hc
  obtain ⟨q, es, hm, rfl⟩ := Pool.Play.moves_of_step? moved
  obtain ⟨d, hd, caller, job, other⟩ | rfl := hm.mem_waiting hc
  · exact ⟨caller ▸ job ▸ h.asked d hd, other⟩
  · exact ⟨new _ _ rfl, by simp⟩

/-- A step of the writer that is no call, and by which it neither gets a line nor is done with one. -/
theorem Staged.writer_still (plan : Plan R S L) {step : Pool.Step (Job L)}
    {writer : Pool.Play (Job L)}
    (h : Staged batchSize p w records complete phase f) (moved : f.writer.step? step = some writer)
    (uncalled : step.job? = none) (unsent : step.inserts = false)
    (undone : ∀ i outcome panics, step ≠ .conclude i outcome panics)
    (asks : phase'.order = 4 → complete = true)
    (feed : Feed.Guided batchSize p records complete phase' f.feed)
    (steered : Pool.Play.Steered w (.client 0) (decide (1 ≤ phase'.order))
      (decide (7 ≤ phase'.order)) writer)
    (exited : 7 ≤ phase'.order → f.feed.pool.Exited) :
    Staged batchSize p w records complete phase'
        { f with writer := writer, commands := phase'.commands complete } ∧
      Work.Moves plan f.work
        { f with writer := writer, commands := phase'.commands complete }.work := by
  have same : { f with writer := writer, commands := phase'.commands complete }.work = f.work := by
    simp [work, Pool.Play.accepted_eq_of_inserts moved unsent]
  refine ⟨?_, same ▸ .still⟩
  exact {
    commands := rfl
    asks := asks
    feed := feed
    writer := steered
    exited := exited
    asked := fun c hc => by
      rw [same]
      exact (h.asked_next moved (fun caller job call => by rw [call] at uncalled; cases uncalled)
        c hc).1
    lines := by
      rw [Pool.Play.conclusions_eq_of_works moved undone]
      exact h.lines }

/-- The writer goes on with what has begun. -/
theorem Staged.writer_continues {step : Pool.Step (Job L)} {writer : Pool.Play (Job L)}
    (h : Staged batchSize p w records complete phase f) (moved : f.writer.step? step = some writer)
    (continues : step.continues = true) (unsent : step.inserts = false)
    (undone : ∀ i outcome panics, step ≠ .conclude i outcome panics) :
    Staged batchSize p w records complete phase { f with writer := writer } ∧
      Work.Moves plan f.work { f with writer := writer }.work := by
  have uncalled : step.job? = none := by
    cases step with
    | enqueue | offer => cases continues
    | _ => rfl
  have next := h.writer_still plan moved uncalled unsent undone h.asks h.feed
    (h.writer.continue moved continues) h.exited
  rwa [← h.commands] at next

/-- A worker calls the writer. -/
theorem Staged.ask {i : Nat} {t : Ticket (Job (List R))} {line : L} {writer : Pool.Play (Job L)}
    (h : Staged batchSize p w records complete phase f)
    (executing : f.feed.pool.executing? i = some t) (task : f.task? i = some (.call line))
    (moved : f.writer.step? (.enqueue (.client (i + 1)) (.ofContext line)) = some writer) :
    Staged batchSize p w records complete phase { f with writer := writer } ∧
      Work.Moves plan f.work { f with writer := writer }.work := by
  have same : { f with writer := writer }.work = f.work := by
    simp [work, Pool.Play.accepted_eq_of_inserts moved rfl]
  have steered := h.writer.next moved (h.unclosed executing) (by simp [Pool.Step.starts])
    (by simp [Pool.Step.shutsDown])
  refine ⟨?_, same ▸ .still⟩
  exact { h with
    writer := by simpa [Pool.Step.starts, Pool.Step.shutsDown] using steered
    asked := fun c hc => by
      rw [same]
      refine (h.asked_next moved (fun caller job call => ?_) c hc).1
      cases call
      exact ⟨i, line, t, rfl, rfl, task, executing⟩
    lines := by
      rw [Pool.Play.conclusions_eq_of_works moved (by simp)]
      exact h.lines }

/-- The line of a worker enters the queue of the writer. -/
theorem Staged.wait {i : Nat} {t : Ticket (Job (List R))} {line : L} {step : Pool.Step (Job L)}
    {writer : Pool.Play (Job L)} (h : Staged batchSize p w records complete phase f)
    (executing : f.feed.pool.executing? i = some t) (task : f.task? i = some (.call line))
    (next : f.writer.pool.callStep? (.client (i + 1)) = some step)
    (moved : f.writer.step? step = some writer) :
    Staged batchSize p w records complete phase ({ f with writer := writer }.afterWrite i step) ∧
      Work.Moves plan f.work ({ f with writer := writer }.afterWrite i step).work := by
  obtain rfl := h.writer.led.callStep?_eq (by simp) (h.unclosed executing) next
  have sent : writer.accepted.map (·.job.context) =
      f.writer.accepted.map (·.job.context) ++ [line] := by
    obtain ⟨q, es, hm, rfl⟩ := Pool.Play.moves_of_step? moved
    cases hm with
    | @insert _ c call =>
      have caller : c.caller = .client (i + 1) := by simpa using List.find?_some call
      obtain ⟨j, own, u, mine, job, at_call, -⟩ := h.asked c (List.mem_of_find?_eq_some call)
      rw [caller] at mine
      cases mine
      rw [show f.work.tasks.lookup i = _ from task] at at_call
      cases at_call
      simp [Pool.Play.accepted_eq_events, Pool.Play.events_next, Pool.Event.accepted?, job,
        Job.ofContext]
  have same : ({ f with writer := writer }.setTask i (.stop .done)).work =
      { f.work with sent := f.work.sent ++ [line] }.setTask i (.stop .done) := by
    simp [work, setTask, Work.setTask, sent]
  refine ⟨?_, ?_⟩
  · exact {
      commands := h.commands
      asks := h.asks
      feed := h.feed
      writer := h.writer.continue moved rfl
      exited := h.exited
      asked := fun c hc => by
        obtain ⟨asks, other⟩ := h.asked_next moved (by simp) c hc
        have caller : c.caller ≠ .client (i + 1) := fun mine => other (by rw [mine])
        exact asks.setTask caller
      lines := h.lines.trans
        (congrArg _ (Pool.Play.conclusions_eq_of_works moved (by simp)).symm) }
  · show Work.Moves plan f.work ({ f with writer := writer }.setTask i (.stop .done)).work
    rw [same]
    exact .send task

/-- A line is written. -/
theorem Staged.write {t : Ticket (Job L)} {writer : Pool.Play (Job L)}
    (h : Staged batchSize p w records complete phase f)
    (executing : f.writer.pool.executing? 0 = some t)
    (moved : f.writer.step? (.conclude 0 .done false) = some writer) :
    Staged batchSize p w records complete phase
        ({ f with writer := writer }.afterLine t.job.context .done) ∧
      Work.Moves plan f.work ({ f with writer := writer }.afterLine t.job.context .done).work := by
  have same : ({ f with writer := writer }.afterLine t.job.context .done).work = f.work := by
    simp [work, afterLine, Pool.Play.accepted_eq_of_inserts moved rfl]
  have conclusions : writer.conclusions = f.writer.conclusions ++ [(t, .done)] := by
    obtain ⟨q, es, hm, rfl⟩ := Pool.Play.moves_of_step? moved
    obtain empty | ⟨i, u, outcome, panics, mine, here, one⟩ := hm.conclusion_cases
    · cases hm with
      | conclude | concludeReported => cases empty
    · cases mine
      rw [executing] at here
      cases here
      rw [Pool.Play.conclusions, Pool.Play.events_next, one]
      rfl
  have written : ({ f with writer := writer }.afterLine t.job.context .done).lines =
      writer.conclusions.map (·.1.job.context) := by
    rw [conclusions, List.map_append, ← h.lines]
    simp [Flow.lines, afterLine]
  refine ⟨?_, same ▸ .still⟩
  exact {
    commands := h.commands
    asks := h.asks
    feed := h.feed
    writer := h.writer.continue moved rfl
    exited := h.exited
    asked := fun c hc => by
      rw [same]
      exact (h.asked_next moved (by simp) c hc).1
    lines := written }

/-! ## All steps -/

/-- The next step of a call of the reading thread is not the end of a refused call. -/
theorem Staged.afterCall_eq {step : Pool.Step (Job (List R))} {feed : Feed R}
    (h : Staged batchSize p w records complete phase f)
    (next : f.feed.pool.callStep? (.client 0) = some step) :
    { f with feed := feed }.afterCall plan step = { f with feed := feed } := by
  unfold afterCall
  split
  · next caller =>
    obtain ⟨c, hc, refused⟩ := (Pool.callStep?_call next).2 caller rfl
    rw [h.feed.steered.led.unrefused c hc] at refused
    cases refused
  · rfl

/-- A command of the reading thread is a step of the feed; only the first and the last are of the
writer. -/
theorem begun_cases {command : Command R} (begins : Phase.Begins complete phase command phase')
    (begun : f.begin? command = some g) :
    (∃ step feed, Phase.Goes complete phase step phase' ∧
        (∀ poolStep, step = .pool poolStep → poolStep.works = false) ∧
        f.feed.step? step = some feed ∧ g = { f with feed := feed }) ∨
      (∃ records writer, phase = .opening records ∧ phase' = .openingPool records ∧
        f.writer.step? (.start (.client 0)) = some writer ∧ g = { f with writer := writer }) ∨
      ∃ writer, phase = .shuttingWriter ∧ phase' = .finished ∧
        f.writer.step? (.shutDown (.client 0)) = some writer ∧ g = { f with writer := writer } := by
  cases begins with
  | startWriter records =>
    obtain ⟨writer, moved, rfl⟩ := Option.map_eq_some_iff.1 begun
    exact .inr (.inl ⟨records, writer, rfl, rfl, moved, rfl⟩)
  | shutWriter =>
    obtain ⟨writer, moved, rfl⟩ := Option.map_eq_some_iff.1 begun
    exact .inr (.inr ⟨writer, rfl, rfl, moved, rfl⟩)
  | startPool records =>
    obtain ⟨feed, moved, rfl⟩ := Option.map_eq_some_iff.1 begun
    exact .inl ⟨_, feed, .start records, by rintro _ ⟨⟩; rfl, moved, rfl⟩
  | push record records =>
    obtain ⟨feed, moved, rfl⟩ := Option.map_eq_some_iff.1 begun
    exact .inl ⟨_, feed, .push record records, by simp, moved, rfl⟩
  | flush =>
    obtain ⟨feed, moved, rfl⟩ := Option.map_eq_some_iff.1 begun
    exact .inl ⟨_, feed, .flush, by simp, moved, rfl⟩
  | idle =>
    obtain ⟨feed, moved, rfl⟩ := Option.map_eq_some_iff.1 begun
    exact .inl ⟨_, feed, .idle, by rintro _ ⟨⟩; rfl, moved, rfl⟩
  | last whole =>
    obtain ⟨feed, moved, rfl⟩ := Option.map_eq_some_iff.1 begun
    exact .inl ⟨_, feed, .last whole, by rintro _ ⟨⟩; rfl, moved, rfl⟩
  | shutPool =>
    obtain ⟨feed, moved, rfl⟩ := Option.map_eq_some_iff.1 begun
    exact .inl ⟨_, feed, .shut, by rintro _ ⟨⟩; rfl, moved, rfl⟩

/-- The reading thread begins with a command. -/
theorem Staged.command {command : Command R} {rest : List (Command R)}
    (h : Staged batchSize p w records complete phase f) (fresh : p.Fresh) (free : f.AtCommand)
    (commands : f.commands = command :: rest) (begun : f.begin? command = some g) :
    ∃ phase', Staged batchSize p w records complete phase' { g with commands := rest } ∧
      Work.Moves plan f.work { g with commands := rest }.work := by
  obtain ⟨phase', begins, rfl⟩ := Phase.Begins.of_commands h.asks (h.commands ▸ commands)
  refine ⟨phase', ?_⟩
  obtain ⟨step, feed, goes, idle, moved, rfl⟩ | ⟨records, writer, rfl, rfl, moved, rfl⟩ |
    ⟨writer, rfl, rfl, moved, rfl⟩ := begun_cases begins begun
  · exact h.feed_still plan fresh goes moved (h.feed.quiet fresh moved idle)
  · have steered := h.writer.next moved ⟨rfl, h.writer.closed_eq⟩ (by simp [Phase.order])
      (by simp [Pool.Step.shutsDown])
    exact h.writer_still plan moved rfl rfl (by simp) (by simp [Phase.order]) h.feed.behind_start
      (by simpa [Phase.order, Pool.Step.starts, Pool.Step.shutsDown] using steered)
      (by simp [Phase.order])
  · have exited : f.feed.pool.Exited := h.feed.steered.exited fresh (Pool.busy_eq_false free.pool)
    have waiting : f.writer.pool.waiting = [] := by
      refine List.eq_nil_iff_forall_not_mem.2 fun c hc => ?_
      obtain ⟨i, line, t, -, -, -, executing⟩ := h.asked c hc
      rw [show f.work.executing i = none from exited.executing?_eq i] at executing
      cases executing
    have steered := h.writer.next moved ⟨rfl, waiting⟩ (by simp [Pool.Step.starts])
      (by simp [Phase.order])
    exact h.writer_still plan moved rfl rfl (by simp) (by simp [Phase.order]) h.feed.behind_end
      (by simpa [Phase.order, Pool.Step.starts, Pool.Step.shutsDown] using steered)
      (fun _ => exited)

/-- **A step keeps what holds of a flow, and is a move of its work.** -/
theorem Staged.next (h : Staged batchSize p w records complete phase f) (fresh : p.Fresh)
    (writes : ∀ line, plan.write line = .done) (hm : Moves plan f actor g) :
    ∃ phase', Staged batchSize p w records complete phase' g ∧
      Work.Moves plan f.work g.work := by
  cases hm with
  | command free commands begun => exact h.command fresh free commands begun
  | enter _ moved =>
    refine ⟨phase, ?_⟩
    have next := h.feed_still plan fresh (.enter phase) moved (h.feed.quiet fresh moved (by simp))
    rwa [← h.commands] at next
  | call next moved =>
    obtain ⟨continues, idle⟩ := Pool.callStep?_continues next
    rw [h.afterCall_eq next]
    refine ⟨phase, ?_⟩
    have next := h.feed_still plan fresh (.continues phase continues) moved
      (h.feed.quiet fresh moved (by rintro _ ⟨⟩; exact idle))
    rwa [← h.commands] at next
  | dispatch next moved =>
    obtain ⟨continues, idle, -⟩ := Pool.loopStep?_continues next
    refine ⟨phase, ?_⟩
    have next := h.feed_still plan fresh (.continues phase continues) moved
      (h.feed.quiet fresh moved (by rintro _ ⟨⟩; exact idle))
    rwa [← h.commands] at next
  | act _ task => exact ⟨phase, h.act task⟩
  | ask executing task _ moved => exact ⟨phase, h.ask executing task moved⟩
  | wait executing task next moved => exact ⟨phase, h.wait executing task next moved⟩
  | conclude _ task moved => exact ⟨phase, h.conclude fresh task moved⟩
  | receive free next moved taken => exact ⟨phase, h.receive fresh free next moved taken⟩
  | work _ next moved free => exact ⟨phase, h.between fresh next moved free⟩
  | @writerCall step writer next moved =>
    obtain ⟨continues, idle⟩ := Pool.callStep?_continues next
    have unsent : step.inserts = false := by
      cases step with
      | insert caller =>
        obtain ⟨-, c, hc, mine⟩ := (Pool.callStep?_call next).1 caller rfl
        exact absurd mine (h.not_waiting hc)
      | offer => cases continues
      | _ => rfl
    exact ⟨phase, h.writer_continues moved continues unsent (by rintro _ _ _ rfl; cases idle)⟩
  | writerDispatch next moved =>
    obtain ⟨continues, idle, unsent⟩ := Pool.loopStep?_continues next
    exact ⟨phase, h.writer_continues moved continues unsent (by rintro _ _ _ rfl; cases idle)⟩
  | writerWork _ next moved =>
    obtain ⟨continues, unsent, own⟩ := Pool.workerStep?_continues next
    exact ⟨phase, h.writer_continues moved continues unsent
      (by rintro _ _ _ rfl; obtain this | this | this := own <;> cases this)⟩
  | @write t writer executing moved =>
    rw [writes] at moved ⊢
    exact ⟨phase, h.write executing moved⟩

/-! ## Runs -/

/-- The reading thread has done all its commands, and is in no call. -/
structure Returned (f : Flow R S L) : Prop where
  commands : f.commands = []
  feed : f.feed.free 0 = true
  writer : f.writer.pool.busy (.client 0) = false

/-- A flow before its threads are started. -/
def fresh (batchSize : Nat) (p : Pool (Job (List R))) (w : Pool (Job L)) (shared : S)
    (commands : List (Command R)) : Flow R S L where
  feed := Feed.ofPool batchSize p
  writer := { pool := w }
  shared := shared
  commands := commands

theorem Staged.start (freshPool : p.Fresh) (freshWriter : w.Fresh) (shared : S) :
    Staged batchSize p w records complete (.opening records)
      (fresh batchSize p w shared ((Phase.opening records).commands complete)) where
  commands := rfl
  asks := by simp [Phase.order]
  feed := .create freshPool
  writer := .create freshWriter _
  exited := by simp [Phase.order]
  asked := fun c hc => by
    rw [show (fresh batchSize p w shared _).writer.pool.waiting = [] from freshWriter.waiting] at hc
    cases hc
  lines := rfl

theorem work_fresh (freshPool : p.Fresh) (shared : S) (commands : List (Command R)) :
    (fresh batchSize p w shared commands).work = ⟨shared, [], fun _ => none, [], []⟩ := by
  have idle : p.executing? = fun _ => none := by
    funext i
    unfold Pool.executing?
    split
    · next here => cases freshPool.workers i _ here
    · rfl
  simp [work, fresh, Feed.ofPool, Feed.pool, idle, Pool.Play.began, Pool.Play.accepted,
    Pool.Play.events]

/-! ## What follows -/

/-- No call is refused. -/
theorem Staged.unrefused (h : Staged batchSize p w records complete phase f) :
    f.feed.play.refused = [] ∧ f.writer.refused = [] ∧ ∀ reply ∈ f.feed.replies, reply = .ok := by
  refine ⟨h.feed.steered.unrefused, h.writer.unrefused, fun reply hr => ?_⟩
  obtain ⟨e, he, same⟩ := List.mem_filterMap.1 hr
  cases e with
  | returned t r =>
    cases same
    exact h.feed.ok t _ (List.mem_reverse.1 he)
  | _ => cases same

/-- No worker is at work on a group when the last job has begun. -/
theorem Staged.apart (h : Staged batchSize p w records complete phase f) (fresh : p.Fresh) {i : Nat}
    {t : Ticket (Job (List R))} (executing : f.work.executing i = some t)
    (group : t.job.endOfStream = false) : ∀ job ∈ f.work.began, job.endOfStream = false := by
  intro job hjob
  obtain ⟨x, hx, rfl⟩ := List.mem_map.1 hjob
  exact h.feed.apart fresh (Pool.mem_executing.2 executing) group x hx

/-- The reading thread returns in its last phase. -/
theorem Staged.finished (h : Staged batchSize p w records complete phase f)
    (returned : f.Returned) : phase = .finished := by
  have commands := h.commands.symm.trans returned.commands
  cases phase with
  | finished => rfl
  | pushing records => cases records <;> cases commands
  | _ => cases commands

/-- Then both pools are finished. -/
theorem Staged.pools_finished (h : Staged batchSize p w records complete phase f) (fresh : p.Fresh)
    (writerFresh : w.Fresh) (returned : f.Returned) :
    f.feed.pool.Finished ∧ f.writer.pool.Finished := by
  obtain rfl := h.finished returned
  have free := returned.feed
  simp only [Feed.free, Bool.and_eq_true, Bool.not_eq_true'] at free
  exact ⟨h.feed.steered.finished fresh free.2, h.writer.finished writerFresh returned.writer⟩

/-- **When the reading thread has returned, the workers were started on all groups, the writer has
written all lines that it was given, and nobody is at work.** -/
theorem Staged.of_returned (h : Staged batchSize p w records complete phase f) (fresh : p.Fresh)
    (writerFresh : w.Fresh) (one : w.workerCount = 1) (returned : f.Returned) :
    f.work.began ~ (Batch.chunks (effectiveSize batchSize) records).map .ofContext ++
        (if complete then [.last []] else []) ∧
      f.lines = f.work.sent ∧ ∀ i, f.work.executing i = none := by
  obtain ⟨⟨_, exited, _⟩, ⟨_, writerExited, _⟩⟩ := h.pools_finished fresh writerFresh returned
  obtain rfl := h.finished returned
  obtain ⟨steps, hs, calm⟩ := h.writer.run
  have whole := (Pool.Play.whole writerFresh hs calm).1
  have done := (Pool.Play.conclusions_eq_accepted writerFresh one hs calm
    (Pool.Play.jobs_eq_zero writerFresh hs whole writerExited)).1
  refine ⟨?_, ?_, exited.executing?_eq⟩
  · simpa [work, Function.comp_def] using h.feed.began_perm fresh exited
  · rw [h.lines, work, ← done, List.map_map]
    rfl

end Flow

end BatchPool
