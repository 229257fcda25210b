import BatchPool.Proofs.Flow.Staged

/-!
# The order of the jobs of a reading thread

Only the reading thread enqueues, one job after another, so the groups enter the pool in the order in
which they were taken out, and the last job comes behind them.

* `Moves.queued_next`: if one thread enqueues all jobs, a job that it enqueues comes behind the others.
* `Feed.Queued`: the jobs that entered the pool, and the one that waits, are those that the handlers
  were called with, and then the given ones.
* `Flow.Queued`: so it is with the jobs of the commands that are done, and `Staged.queued_next`: the
  steps of a flow keep this.
* `Staged.began_eq`: so a pool of one worker was started on the parts of the records in their order.
-/

namespace BatchPool

variable {R S L : Type}

namespace Pool

variable {J : Type} {p q : Pool J} {step : Step J} {es : List (Event J)} {thread : Thread}

/-- The jobs that entered the queue, and the one with which a thread waits for room. -/
def Play.queued (s : Play J) (thread : Thread) : List J :=
  s.accepted.map (·.job) ++ (s.pool.waitingJob? thread).toList

/-- If all calls that wait for room are of one thread, the job of a call comes behind the others. -/
theorem Moves.waiting_law (hm : Moves p step q es) (mine : ∀ c ∈ p.waiting, c.caller = thread)
    (unrefused : ∀ c ∈ p.waiting, c.refused = false) (waits : step.offers = false)
    (own : ∀ caller job, step = .enqueue caller job → caller = thread) :
    (es.filterMap Event.accepted?).map (·.job) ++ (q.waitingJob? thread).toList =
      (p.waitingJob? thread).toList ++ step.job?.toList := by
  rw [hm.waitingJob_next thread]
  cases hm with
  | @enqueue caller job free =>
    obtain rfl := own caller job rfl
    simp [waitingJob?, waitingOf?_of_mayCall free, Step.waitingJob, Step.job?]
  | @insert caller c call =>
    have same : c.caller = caller := by simpa using List.find?_some call
    obtain rfl : caller = thread := same ▸ mine c (List.mem_of_find?_eq_some call)
    simp [waitingJob?, call, Step.waitingJob, Step.job?, Event.accepted?]
  | rollback call refused =>
    rw [unrefused _ (List.mem_of_find?_eq_some call)] at refused
    cases refused
  | offerClosed | offerFull | offerTaken => cases waits
  | _ => simp [Step.waitingJob, Step.job?, List.filterMap_cons, Event.accepted?, failStart]

theorem Play.queued_next {s t : Play J} (moved : s.step? step = some t)
    (mine : ∀ c ∈ s.pool.waiting, c.caller = thread)
    (unrefused : ∀ c ∈ s.pool.waiting, c.refused = false) (waits : step.offers = false)
    (own : ∀ caller job, step = .enqueue caller job → caller = thread) :
    t.queued thread = s.queued thread ++ step.job?.toList := by
  obtain ⟨q, es, hm, rfl⟩ := moves_of_step? moved
  have law := hm.waiting_law mine unrefused waits own
  rw [queued, accepted_eq_events, events_next, List.map_append, List.append_assoc, pool_next, law,
    queued, List.append_assoc, accepted_eq_events]

end Pool

namespace Batch.Calls

variable {H : Type} {hs : Handlers H} {c d : Calls R H} {m : Move R H} {thread : Nat}

/-- The groups that are taken out and passed on by the calls of one thread are its own. -/
theorem Moves.thread_eq (hm : Moves hs c m d) (mine : m.caller? = some thread)
    (before : ∀ x ∈ c.taken ++ c.called, x.thread = thread) :
    ∀ x ∈ d.taken ++ d.called, x.thread = thread := by
  simp only [taken, called, List.mem_append, or_imp, forall_and] at before ⊢
  obtain ⟨taken, called⟩ := before
  cases hm <;> cases mine <;>
    simp_all [events_note, Event.taken?, Event.called?, or_imp]

end Batch.Calls

namespace Feed

/-- The reading thread enqueued the groups that its handlers were called with, in this order, and then
the given jobs. -/
structure Queued (direct : List (Job (List R))) (f : Feed R) : Prop where
  /-- No other thread took groups out, or called a handler. -/
  mine : ∀ x ∈ f.calls.taken ++ f.calls.called, x.thread = 0
  jobs : f.play.queued (.client 0) = f.calledJobs ++ direct

variable {batchSize : Nat} {p : Pool (Job (List R))} {records : List R} {complete : Bool}
  {phase phase' : Phase R} {f g : Feed R} {step : Step R} {direct : List (Job (List R))}

/-- The step is one of the reading thread or of the pool itself. -/
def Step.Sole : Step R → Prop
  | .push t _ | .flush t | .enter t => t = 0
  | .pool step => step.offers = false ∧ ∀ caller job, step = .enqueue caller job → caller = .client 0

/-- Only the reading thread and the pool move the feed. -/
theorem sole_of_goes (h : Phase.Goes complete phase step phase') : step.Sole := by
  cases h with
  | @continues _ poolStep continues =>
    cases poolStep with
    | enqueue | offer => cases continues
    | _ => simp [Step.Sole, Pool.Step.offers]
  | _ => simp [Step.Sole, Pool.Step.offers]

/-- A step of the reading thread enqueues at most one job behind the others. -/
theorem Guided.queued_next (h : Guided batchSize p records complete phase f)
    (moved : f.step? step = some g) (sole : step.Sole) (queued : f.Queued direct)
    (early : step = .enter 0 → direct = []) : g.Queued (direct ++ step.direct?.toList) := by
  -- A step of the pool leaves the calls alone, but for a return.
  have pool : ∀ {poolStep : Pool.Step (Job (List R))}, step = .pool poolStep →
      f.play.step? poolStep = some g.play →
        (g.calls.taken = f.calls.taken ∧ g.calls.called = f.calls.called) →
          g.Queued (direct ++ step.direct?.toList) := by
    rintro poolStep rfl moved ⟨taken, called⟩
    have all := Pool.Play.queued_next moved h.callers h.steered.led.unrefused sole.1 sole.2
    refine ⟨by rw [taken, called]; exact queued.mine, ?_⟩
    rw [all, queued.jobs, calledJobs, calledJobs, called, List.append_assoc]
    rfl
  cases Moves.of_step? moved with
  | push _ move | flush _ move =>
    obtain rfl := sole
    have move := h.conserved.of_move? (by simp [Batch.Calls.Move.caller?]) move
    refine ⟨move.thread_eq rfl queued.mine, ?_⟩
    have called := move.called_eq
    simp only [Batch.Calls.entered, List.append_nil] at called
    rw [queued.jobs, calledJobs, calledJobs, called]
    exact congrArg _ (List.append_nil direct).symm
  | enter holding move enqueued =>
    obtain rfl := sole
    obtain rfl := early rfl
    have move := h.conserved.of_move? (by simp [Batch.Calls.Move.caller?]) move
    have all := Pool.Play.queued_next enqueued h.callers h.steered.led.unrefused rfl
      (by rintro _ _ ⟨⟩; rfl)
    refine ⟨move.thread_eq rfl queued.mine, ?_⟩
    have called := move.called_eq
    simp only [Batch.Calls.entered, Batch.Calls.inHand, holding] at called
    rw [all, queued.jobs, calledJobs, calledJobs, called]
    simp [Pool.Step.job?, Step.direct?]
  | @answer poolStep play t outcome stepped =>
    refine pool rfl (by rw [play_leave]; exact stepped) ?_
    obtain ⟨_, _, -, -, left⟩ | ⟨-, same⟩ := leave_cases { f with play := play } t outcome
    · rw [left]
      simp [Batch.Calls.taken, Batch.Calls.called, Batch.Calls.events_note, Batch.Event.taken?,
        Batch.Event.called?]
    · rw [same]
      exact ⟨rfl, rfl⟩
  | pool _ stepped => exact pool rfl stepped ⟨rfl, rfl⟩

/-- The groups of the reading thread were all passed on when it is in no call of the batch. -/
theorem Guided.calledJobs_eq (h : Guided batchSize p records complete phase f)
    (queued : f.Queued direct) (returned : f.calls.stack 0 = []) :
    f.calledJobs = f.calls.taken.map fun x => .ofContext x.group := by
  have delivered := h.conserved.delivered 0
  have all : ∀ x ∈ f.calls.taken, x.thread = 0 := fun x hx =>
    queued.mine x (List.mem_append_left _ hx)
  have own : ∀ x ∈ f.calls.called, x.thread = 0 := fun x hx =>
    queued.mine x (List.mem_append_right _ hx)
  rw [Batch.Calls.ofThread, Batch.Calls.ofThread, List.filter_eq_self.2 (by simpa using all),
    List.filter_eq_self.2 (by simpa using own), Batch.Calls.inHand, returned] at delivered
  rw [calledJobs, delivered, List.append_nil]

/-- The worker of a pool of one was started on the parts of the records in their order, and then on the
last job, when all threads have ended. -/
theorem Guided.began_eq (h : Guided batchSize p records true .finished f) (fresh : p.Fresh)
    (one : p.workerCount = 1) (exited : f.pool.Exited) (queued : f.Queued [.last []]) :
    f.play.began.map (·.2.job) =
      (Batch.chunks (effectiveSize batchSize) records).map .ofContext ++ [.last []] := by
  obtain ⟨poolSteps, hs, calm, -⟩ := h.exists_poolRun
  have whole := (Pool.Play.whole fresh hs calm).1
  have began := Pool.Play.began_eq_accepted fresh one hs calm
    (Pool.Play.jobs_eq_zero fresh hs whole exited)
  have none : f.play.pool.waitingJob? (.client 0) = Option.none := by
    rw [Pool.waitingJob?, Pool.waitingOf?, h.steered.led.welcome h.steered.closed_eq]
    rfl
  have accepted := queued.jobs
  rw [Pool.Play.queued, none, Option.toList_none, List.append_nil,
    h.calledJobs_eq queued (h.returned (by simp [Phase.order]))] at accepted
  calc f.play.began.map (·.2.job)
    _ = f.play.accepted.map (·.job) := by rw [← began, List.map_map]; rfl
    _ = (f.calls.taken.map (·.group)).map .ofContext ++ [.last []] := by
      rw [accepted, List.map_map]; rfl
    _ = _ := by rw [h.taken_eq]

end Feed

namespace Flow

open scoped List

/-- The last job, once the reading thread of a complete input has enqueued it. -/
def lastJobs (commands : List (Command R)) : List (Job (List R)) :=
  if commands.length ≤ 2 then [.last []] else []

/-- The jobs of the pool are the groups in their order, and then the last job. -/
def Queued (f : Flow R S L) : Prop := f.feed.Queued (lastJobs f.commands)

variable {batchSize : Nat} {p : Pool (Job (List R))} {w : Pool (Job L)} {records : List R}
  {phase phase' : Phase R} {plan : Plan R S L} {f g : Flow R S L} {actor : Actor}

theorem lastJobs_commands (phase : Phase R) :
    lastJobs (phase.commands true) = phase.direct true := by
  cases phase <;> simp [lastJobs, Phase.commands, Phase.closing, Phase.direct, Phase.order]

/-- A step of the reading thread, or of the pool, keeps the order of the jobs. -/
theorem Staged.queued_of_goes {step : Feed.Step R} {feed : Feed R}
    (h : Staged batchSize p w records true phase f) (goes : Phase.Goes true phase step phase')
    (moved : f.feed.step? step = some feed) (queued : f.Queued) :
    feed.Queued (lastJobs (phase'.commands true)) := by
  have before : f.feed.Queued (phase.direct true) := by
    rw [← lastJobs_commands, ← h.commands]
    exact queued
  rw [lastJobs_commands, goes.direct_eq]
  refine h.feed.queued_next moved (Feed.sole_of_goes goes) before ?_
  rintro rfl
  cases Feed.Moves.of_step? moved with
  | enter holding =>
    -- The thread is in a call of the batch, so it has not waited for the pool.
    have early : ¬4 ≤ phase.order := fun late => by
      rw [h.feed.returned late] at holding
      cases holding
    exact if_neg fun late => early (by omega)

/-- **The steps of a flow keep the order of the jobs.** -/
theorem Staged.queued_next (h : Staged batchSize p w records true phase f)
    (hm : Moves plan f actor g) (queued : f.Queued) : g.Queued := by
  have continues : ∀ {step : Pool.Step (Job (List R))} {feed : Feed R},
      step.continues = true → f.feed.step? (.pool step) = some feed →
        feed.Queued (lastJobs f.commands) := by
    intro step feed continues moved
    rw [h.commands]
    exact h.queued_of_goes (.continues phase continues) moved queued
  cases hm with
  | @command command rest g free commands begun =>
    obtain ⟨phase', begins, rfl⟩ := Phase.Begins.of_commands h.asks (h.commands ▸ commands)
    have before : f.feed.Queued (lastJobs f.commands) := queued
    rw [h.commands, lastJobs_commands] at before
    obtain ⟨step, feed, goes, -, moved, rfl⟩ | ⟨records, writer, rfl, rfl, -, rfl⟩ |
      ⟨writer, rfl, rfl, -, rfl⟩ := begun_cases begins begun
    · exact h.queued_of_goes goes moved queued
    -- The writer starts before the last job is enqueued, and ends behind it.
    · show f.feed.Queued (lastJobs ((Phase.openingPool records).commands true))
      rw [lastJobs_commands]
      exact before
    · show f.feed.Queued (lastJobs (Phase.finished.commands true))
      rw [lastJobs_commands]
      exact before
  | enter _ moved =>
    have next := h.queued_of_goes (.enter phase) moved queued
    rwa [← h.commands] at next
  | call next moved =>
    rw [h.afterCall_eq next]
    exact continues (Pool.callStep?_continues next).1 moved
  | dispatch next moved => exact continues (Pool.loopStep?_continues next).1 moved
  | conclude _ _ moved => exact continues rfl moved
  | receive _ next moved | work _ next moved =>
    exact continues (Pool.workerStep?_continues next).1 moved
  | wait =>
    unfold afterWrite
    split <;> exact queued
  | write =>
    unfold afterLine
    split <;> exact queued
  | act | ask | writerCall | writerDispatch | writerWork => exact queued

/-- Before its threads are started no job has entered a pool. -/
theorem Queued.start (fresh : p.Fresh) (shared : S) :
    (Flow.fresh batchSize p w shared ((Phase.opening records).commands true)).Queued where
  mine := fun x hx => by cases hx
  jobs := by
    show [] ++ (p.waitingJob? (.client 0)).toList =
      [] ++ lastJobs ((Phase.opening records).commands true)
    rw [lastJobs_commands, Pool.waitingJob?, Pool.waitingOf?, fresh.waiting]
    rfl

/-- **When the reading thread of a complete input has returned, the worker of a pool of one was started
on the parts of the records in their order, and then on the last job.** -/
theorem Staged.began_eq (h : Staged batchSize p w records true phase f) (fresh : p.Fresh)
    (writerFresh : w.Fresh) (one : p.workerCount = 1) (queued : f.Queued) (returned : f.Returned) :
    f.work.began =
      (Batch.chunks (effectiveSize batchSize) records).map .ofContext ++ [.last []] := by
  obtain ⟨⟨_, exited, _⟩, -⟩ := h.pools_finished fresh writerFresh returned
  obtain rfl := h.finished returned
  have last : f.feed.Queued (lastJobs f.commands) := queued
  rw [h.commands] at last
  exact h.feed.began_eq fresh one exited last

end Flow

end BatchPool
