import BatchPool.Proofs.Batch.Chunks
import BatchPool.Proofs.Feed.Carried
import BatchPool.Proofs.Flow.Phases

/-!
# The feed of a reading thread

Only the reading thread pushes, flushes and enqueues, so the groups of the feed are the parts of its
records, and once it has waited for the pool, all groups are done.

* `Feed.Guided`: what holds of the feed in a phase, and `Feed.Guided.next`: its steps keep it.
* `Feed.Guided.apart`: no group is at work any more when the last job has begun.
* `Feed.Guided.began_perm`: what the work function was started on, when the pool was shut down.
-/

namespace BatchPool

namespace Feed

open scoped List

variable {R : Type}

/-- What holds in a phase of a feed whose reading thread is the only one. -/
structure Guided (batchSize : Nat) (p : Pool (Job (List R))) (records : List R) (complete : Bool)
    (phase : Phase R) (f : Feed R) : Prop where
  run : ∃ steps, (ofPool batchSize p).run? steps = some f ∧
    (∀ step ∈ steps, step.panics = false) ∧
      steps.filterMap Step.pushed? ++ phase.remaining = records ∧
        steps.filterMap Step.direct? = phase.direct complete
  steered : Pool.Play.Steered p (.client 0) (decide (2 ≤ phase.order)) (decide (6 ≤ phase.order))
    f.play
  callers : ∀ c ∈ f.pool.waiting, c.caller = .client 0
  alone : f.calls.Alone 0
  /-- The groups that were taken out, and the parts of the other records, are the parts of all. -/
  parts : f.calls.taken.map (·.group) ++
      Batch.chunks (effectiveSize batchSize) (f.calls.batch.records ++ phase.remaining) =
    Batch.chunks (effectiveSize batchSize) records
  flushed : 3 ≤ phase.order → f.calls.batch.records = []
  returned : 4 ≤ phase.order → f.calls.stack 0 = []
  settled : 4 ≤ phase.order → f.play.Settled (·.endOfStream = true)
  ok : ∀ t reply, .returned t reply ∈ f.calls.history → reply = .ok

variable {batchSize : Nat} {p : Pool (Job (List R))} {records rest : List R} {complete : Bool}
  {phase phase' : Phase R} {f g : Feed R} {step : Step R}

/-! ## Small facts -/

theorem Guided.conserved (h : Guided batchSize p records complete phase f) :
    f.calls.Conserved (effectiveSize batchSize) handlers :=
  have ⟨_, hs, _⟩ := h.run
  (Feed.conserved hs).1

theorem Guided.unclosed (h : Guided batchSize p records complete phase f) (early : phase.order < 6) :
    f.pool.closed = false := by
  rw [pool, h.steered.closed_eq]
  exact decide_eq_false (Nat.not_le_of_lt early)

/-- The thread waits in no other call when it makes one. -/
theorem Guided.waiting_eq_nil (h : Guided batchSize p records complete phase f)
    (free : f.pool.waitingOf? (.client 0) = none) : f.pool.waiting = [] := by
  refine List.eq_nil_iff_forall_not_mem.2 fun c hc => ?_
  have := List.find?_eq_none.1 free c hc
  simp [h.callers c hc] at this

/-- The run of the pool in the run of the feed. -/
theorem Guided.exists_poolRun (h : Guided batchSize p records complete phase f) :
    ∃ poolSteps, Pool.Play.run? { pool := p } poolSteps = some f.play ∧
      (∀ step ∈ poolSteps, step.panics = false) ∧
        Pool.calls poolSteps ~ f.calledJobs ++ phase.direct complete := by
  obtain ⟨steps, hs, calm, -, direct⟩ := h.run
  obtain ⟨poolSteps, hp⟩ := Feed.exists_poolRun hs
  refine ⟨poolSteps, hp.run, fun step hstep => ?_, direct ▸ hp.jobs⟩
  obtain mine | ⟨t, group, rfl⟩ := hp.own step hstep
  · exact calm _ mine
  · rfl

theorem Guided.create (fresh : p.Fresh) :
    Guided batchSize p records complete (.opening records) (ofPool batchSize p) where
  run := ⟨[], rfl, by simp, rfl, by simp [Phase.direct, Phase.order]⟩
  steered := .create fresh _
  callers := fun c hc => by
    rw [show (ofPool batchSize p).pool.waiting = [] from fresh.waiting] at hc
    cases hc
  alone := fun s hs => by cases hs
  parts := rfl
  flushed := fun late => absurd late (by simp [Phase.order])
  returned := fun late => absurd late (by simp [Phase.order])
  settled := fun late => absurd late (by simp [Phase.order])
  ok := fun t reply h => by cases h

/-- The commands of the writer do not touch the feed. -/
theorem Guided.behind_start (h : Guided batchSize p records complete (.opening rest) f) :
    Guided batchSize p records complete (.openingPool rest) f where
  run := by simpa [Phase.direct, Phase.order, Phase.remaining] using h.run
  steered := h.steered
  callers := h.callers
  alone := h.alone
  parts := h.parts
  flushed := fun late => absurd late (by simp [Phase.order])
  returned := fun late => absurd late (by simp [Phase.order])
  settled := fun late => absurd late (by simp [Phase.order])
  ok := h.ok

theorem Guided.behind_end (h : Guided batchSize p records complete .shuttingWriter f) :
    Guided batchSize p records complete .finished f where
  run := by simpa [Phase.direct, Phase.order, Phase.remaining] using h.run
  steered := h.steered
  callers := h.callers
  alone := h.alone
  parts := h.parts
  flushed := fun _ => h.flushed (by simp [Phase.order])
  returned := fun _ => h.returned (by simp [Phase.order])
  settled := fun _ => h.settled (by simp [Phase.order])
  ok := h.ok

/-! ## Steps of the pool -/

/-- The steps of the pool go by the rules. -/
theorem Guided.pool_next {poolStep : Pool.Step (Job (List R))} {play : Pool.Play (Job (List R))}
    (h : Guided batchSize p records complete phase f)
    (goes : Phase.Goes complete phase (.pool poolStep) phase')
    (moved : f.play.step? poolStep = some play) :
    Pool.Play.Steered p (.client 0) (decide (2 ≤ phase'.order)) (decide (6 ≤ phase'.order))
      play := by
  cases goes with
  | start records =>
    simpa [Phase.order, Pool.Step.starts, Pool.Step.shutsDown] using
      h.steered.next moved ⟨rfl, h.unclosed (by simp [Phase.order])⟩ (by simp [Phase.order])
        (by simp [Pool.Step.shutsDown])
  | idle =>
    obtain ⟨four, less⟩ := Phase.order_waited R complete
    have two := Nat.le_trans (by decide : 2 ≤ 4) four
    have six := Nat.not_le_of_lt less
    rw [decide_eq_true two, decide_eq_false six]
    simpa [Phase.order, Pool.Step.starts, Pool.Step.shutsDown] using
      h.steered.next moved trivial (by simp [Pool.Step.starts]) (by simp [Pool.Step.shutsDown])
  | last =>
    simpa [Phase.order, Pool.Step.starts, Pool.Step.shutsDown] using
      h.steered.next moved (h.unclosed (by simp [Phase.order])) (by simp [Pool.Step.starts])
        (by simp [Pool.Step.shutsDown])
  | shut =>
    have waiting : f.pool.waiting = [] := by
      obtain ⟨q, es, hm, -⟩ := Pool.Play.moves_of_step? moved
      cases hm with
      | shutDown free => exact h.waiting_eq_nil (Pool.waitingOf?_of_mayCall free)
    simpa [Phase.order, Pool.Step.starts, Pool.Step.shutsDown] using
      h.steered.next moved ⟨rfl, waiting⟩ (by simp [Pool.Step.starts]) (by simp [Phase.order])
  | continues phase continues => exact h.steered.continue moved continues

theorem Guided.play_next (h : Guided batchSize p records complete phase f)
    (goes : Phase.Goes complete phase step phase') (hm : Moves f step g) :
    Pool.Play.Steered p (.client 0) (decide (2 ≤ phase'.order)) (decide (6 ≤ phase'.order))
      g.play := by
  cases hm with
  | push => cases goes; exact h.steered
  | flush => cases goes; exact h.steered
  | enter holding _ enqueued =>
    cases goes
    have early : phase.order < 6 := by
      by_contra late
      rw [h.returned (by omega)] at holding
      cases holding
    simpa [Pool.Step.starts, Pool.Step.shutsDown] using
      h.steered.next enqueued (h.unclosed early) (by simp [Pool.Step.starts])
        (by simp [Pool.Step.shutsDown])
  | answer moved =>
    rw [play_leave]
    exact h.pool_next goes moved
  | pool _ moved => exact h.pool_next goes moved

/-- What waits in the pool after a step waited before, or the reading thread enqueues it by the
step. -/
theorem Guided.callers_next (h : Guided batchSize p records complete phase f)
    (goes : Phase.Goes complete phase step phase') (hm : Moves f step g) :
    ∀ c ∈ g.pool.waiting, c.caller = .client 0 := by
  have next : ∀ {poolStep play}, f.play.step? poolStep = some play →
      (∀ caller job, poolStep = .enqueue caller job → caller = .client 0) →
        ∀ c ∈ play.pool.waiting, c.caller = .client 0 := by
    intro poolStep play moved mine c hc
    obtain ⟨q, es, hm, rfl⟩ := Pool.Play.moves_of_step? moved
    obtain ⟨d, hd, same, -⟩ | rfl := hm.mem_waiting hc
    · exact same ▸ h.callers d hd
    · exact mine _ _ rfl
  have mine : ∀ poolStep, step = .pool poolStep →
      ∀ caller job, poolStep = .enqueue caller job → caller = .client 0 := by
    rintro _ rfl caller job rfl
    cases goes with
    | last => rfl
    | continues _ continues => cases continues
  cases hm with
  | push | flush => exact h.callers
  | enter _ _ enqueued =>
    cases goes
    exact next enqueued fun caller job same => by cases same; rfl
  | answer moved =>
    rw [pool, play_leave]
    exact next moved (mine _ rfl)
  | pool _ moved => exact next moved (mine _ rfl)

/-! ## Steps of the batch -/

/-- Only the reading thread calls the batch, and its handlers succeed. -/
theorem Guided.calls_cases (h : Guided batchSize p records complete phase f)
    (goes : Phase.Goes complete phase step phase') (hm : Moves f step g) :
    (g.calls = f.calls ∧ step.pushed? = none ∧ step.flushes = false) ∨
      ∃ m, Batch.Calls.Moves handlers f.calls m g.calls ∧ m.caller? = some 0 ∧
        m.pushed? = step.pushed? ∧ m.flushes = step.flushes ∧
          ∀ outcome, m = .leave 0 outcome → outcome = .done := by
  have move : ∀ {m}, f.calls.move? m = some g.calls → m.caller? ≠ none →
      Batch.Calls.Moves handlers f.calls m g.calls := fun move call =>
    h.conserved.of_move? call move
  cases hm with
  | push _ moved | flush _ moved | enter _ moved =>
    cases goes
    exact .inr ⟨_, move moved (by simp [Batch.Calls.Move.caller?]), rfl, rfl, rfl, by simp⟩
  | @answer poolStep play t outcome poolMoved returned =>
    obtain ⟨group, rest, serving, moved, -⟩ | ⟨-, same⟩ :=
      leave_cases { f with play := play } t outcome
    · obtain rfl : t = 0 := by
        by_contra other
        have empty : f.calls.stack t = [] := h.alone.stack_eq_nil other
        rw [show f.calls.stack t = _ from serving] at empty
        cases empty
      refine .inr ⟨_, move moved (by simp [Batch.Calls.Move.caller?]), rfl, rfl, rfl, ?_⟩
      rintro _ ⟨⟩
      obtain ⟨q, es, hm, -⟩ := Pool.Play.moves_of_step? poolMoved
      cases hm with
      | @insert caller =>
        cases caller <;> cases returned
        rfl
      | rollback call refused =>
        have := h.steered.led.unrefused _ (List.mem_of_find?_eq_some call)
        rw [this] at refused
        cases refused
      | _ => cases returned
    · rw [same]
      exact .inl ⟨rfl, rfl, rfl⟩
  | pool => exact .inl ⟨rfl, rfl, rfl⟩

/-- Once the thread has waited, it calls the batch no more. -/
theorem Guided.calls_eq (h : Guided batchSize p records complete phase f)
    (goes : Phase.Goes complete phase step phase') (hm : Moves f step g) (late : 4 ≤ phase.order) :
    g.calls = f.calls := by
  obtain ⟨same, -⟩ | ⟨m, move, mine, pushed, flushes, -⟩ := h.calls_cases goes hm
  · exact same
  · have unpushed : step.pushed? = none ∧ step.flushes = false := by
      cases goes with
      | push | flush => simp [Phase.order] at late
      | _ => exact ⟨rfl, rfl⟩
    rw [unpushed.1] at pushed
    rw [unpushed.2] at flushes
    have stack := h.returned late
    generalize g.calls = d at move ⊢
    cases move with
    | keep | fill => cases pushed
    | pass | drain => cases flushes
    | enter top | leave top =>
      cases mine
      rw [stack] at top
      cases top

theorem Guided.returned_next (h : Guided batchSize p records complete phase f)
    (goes : Phase.Goes complete phase step phase') (hm : Moves f step g) (late : 4 ≤ phase'.order) :
    g.calls.stack 0 = [] := by
  by_cases before : 4 ≤ phase.order
  · rw [h.calls_eq goes hm before]
    exact h.returned before
  · cases goes with
    | idle =>
      cases hm with
      | answer _ returned => cases returned
      | pool allowed => simpa [allows, Pool.Step.beginner?] using allowed
    | enter | continues => exact absurd late before
    | _ => simp [Phase.order] at late before

theorem Guided.flushed_next (h : Guided batchSize p records complete phase f)
    (goes : Phase.Goes complete phase step phase') (hm : Moves f step g) (late : 3 ≤ phase'.order) :
    g.calls.batch.records = [] := by
  have empty : step.flushes = true ∨ step.pushed? = none ∧ f.calls.batch.records = [] := by
    cases goes with
    | flush => exact .inl rfl
    | push | start => simp [Phase.order] at late
    | enter | continues => exact .inr ⟨rfl, h.flushed late⟩
    | _ => exact .inr ⟨rfl, h.flushed (by simp [Phase.order])⟩
  obtain ⟨same, unpushed, unflushed⟩ | ⟨m, move, -, pushed, flushes, -⟩ := h.calls_cases goes hm
  · rw [same]
    obtain flushes | ⟨-, empty⟩ := empty
    · rw [unflushed] at flushes
      cases flushes
    · exact empty
  · rw [← pushed, ← flushes] at empty
    exact move.records_nil empty

theorem Guided.settled_next (h : Guided batchSize p records complete phase f)
    (goes : Phase.Goes complete phase step phase') (hm : Moves f step g) (fresh : p.Fresh)
    (late : 4 ≤ phase'.order) : g.play.Settled (·.endOfStream = true) := by
  by_cases before : 4 ≤ phase.order
  · have settled := h.settled before
    have mine : ∀ poolStep, step = .pool poolStep →
        ∀ job, poolStep.job? = some job → job.endOfStream = true := by
      rintro poolStep rfl job last
      cases goes with
      | last => cases last; rfl
      | continues _ continues =>
        rw [(Phase.direct?_of_continues continues).1] at last
        cases last
      | _ => cases last
    cases hm with
    | push | flush => exact settled
    | enter holding =>
      cases goes
      rw [h.returned before] at holding
      cases holding
    | answer moved =>
      rw [play_leave]
      exact settled.next moved (mine _ rfl)
    | pool _ moved => exact settled.next moved (mine _ rfl)
  · cases goes with
    | idle =>
      cases hm with
      | answer _ returned => cases returned
      | pool _ moved =>
        obtain ⟨q, es, hm, rfl⟩ := Pool.Play.moves_of_step? moved
        obtain ⟨steps, hs, calm⟩ := h.steered.run
        cases hm with
        | idle free none =>
          have before : f.play.Settled (·.endOfStream = true) := .of_idle fresh hs calm none
          exact before.next moved fun job last => by cases last
    | enter | continues => exact absurd late before
    | _ => simp [Phase.order] at late before

theorem Guided.ok_next (h : Guided batchSize p records complete phase f)
    (goes : Phase.Goes complete phase step phase') (hm : Moves f step g) (t : Nat) (reply : Reply)
    (hr : .returned t reply ∈ g.calls.history) : reply = .ok := by
  obtain ⟨same, -⟩ | ⟨m, move, mine, -, -, done⟩ := h.calls_cases goes hm
  · exact h.ok t reply (same ▸ hr)
  · generalize g.calls = d at move hr
    cases move with
    | keep | pass =>
      obtain now | before := List.mem_cons.1 hr
      · cases now
        rfl
      · exact h.ok t reply (by simpa [Batch.Calls.note] using before)
    | leave =>
      obtain now | before := List.mem_cons.1 hr
      · cases now
        cases mine
        rw [done _ rfl]
        rfl
      · exact h.ok t reply before
    | fill | drain | enter =>
      exact h.ok t reply (by simpa [Batch.Calls.note, Batch.Calls.setStack] using hr)

/-- Threads of the pool that have ended stay so. -/
theorem Guided.exited_next (h : Guided batchSize p records complete phase f) (fresh : p.Fresh)
    (moved : f.step? step = some g) (exited : f.pool.Exited) : g.pool.Exited := by
  obtain ⟨same, -⟩ | ⟨poolStep, moved, -⟩ := (Moves.of_step? moved).play_cases
  · exact show g.play.pool.Exited from same ▸ exited
  · exact h.steered.exited_next fresh moved exited

/-- A step changes nothing about who is at work, or a worker takes a job, or one ends. -/
theorem Guided.work_cases (h : Guided batchSize p records complete phase f) (fresh : p.Fresh)
    (moved : f.step? step = some g) :
    (g.pool.executing? = f.pool.executing? ∧ g.play.began = f.play.began ∧
        ∀ i outcome panics, step ≠ .pool (.conclude i outcome panics)) ∨
      (∃ i t, step = .pool (.receive i) ∧ f.pool.executing? i = none ∧
        g.pool.executing? = Function.update f.pool.executing? i (some t) ∧
          g.play.began = f.play.began ++ [(i, t)]) ∨
      ∃ i outcome panics, step = .pool (.conclude i outcome panics) ∧
        g.pool.executing? = Function.update f.pool.executing? i none ∧
          g.play.began = f.play.began := by
  obtain ⟨same, other⟩ | ⟨poolStep, moved, own⟩ := (Moves.of_step? moved).play_cases
  · rw [pool, pool, same]
    exact .inl ⟨rfl, rfl, fun _ _ _ => other _⟩
  obtain ⟨q, es, hm, same⟩ := Pool.Play.moves_of_step? moved
  obtain ⟨steps, hs, -⟩ := h.steered.run
  have began : g.play.began = f.play.began ++ es.filterMap Pool.Event.began? := by
    rw [same]
    exact Pool.Play.events_next ..
  have next : g.pool = q := by
    rw [pool, same]
    rfl
  rw [next, began]
  have cases := (fresh.sound.of_run hs).work_cases hm
  obtain rfl | ⟨⟨t, rfl⟩, caller, job, rfl⟩ := own
  · obtain ⟨executing, none, other⟩ | ⟨i, t, rfl, free, executing, one⟩ |
        ⟨i, outcome, panics, rfl, executing, none⟩ := cases
    · exact .inl ⟨executing, by rw [none, List.append_nil], by simpa using other⟩
    · exact .inr (.inl ⟨i, t, rfl, free, executing, by rw [one]⟩)
    · exact .inr (.inr ⟨i, outcome, panics, rfl, executing, by rw [none, List.append_nil]⟩)
  · obtain ⟨executing, none, -⟩ | ⟨i, t, other, -⟩ | ⟨i, outcome, panics, other, -⟩ := cases
    · exact .inl ⟨executing, by rw [none, List.append_nil], by simp⟩
    · cases other
    · cases other

/-- A step by which no worker takes a job or ends. -/
theorem Guided.quiet (h : Guided batchSize p records complete phase f) (fresh : p.Fresh)
    (moved : f.step? step = some g)
    (idle : ∀ poolStep, step = .pool poolStep → poolStep.works = false) :
    g.pool.executing? = f.pool.executing? ∧ g.play.began = f.play.began := by
  obtain ⟨executing, began, -⟩ | ⟨i, t, works, -⟩ | ⟨i, outcome, panics, works, -⟩ :=
    h.work_cases fresh moved
  · exact ⟨executing, began⟩
  · cases idle _ works
  · cases idle _ works

/-- **The steps of a phase keep a feed guided.** -/
theorem Guided.next (h : Guided batchSize p records complete phase f)
    (goes : Phase.Goes complete phase step phase') (moved : f.step? step = some g) (fresh : p.Fresh) :
    Guided batchSize p records complete phase' g := by
  have hm := Moves.of_step? moved
  refine {
    run := ?_
    steered := h.play_next goes hm
    callers := h.callers_next goes hm
    alone := ?_
    parts := ?_
    flushed := h.flushed_next goes hm
    returned := h.returned_next goes hm
    settled := h.settled_next goes hm fresh
    ok := h.ok_next goes hm }
  · obtain ⟨steps, hs, calm, pushed, direct⟩ := h.run
    refine ⟨steps ++ [step], by simp [run?_append, hs, run?, moved], ?_, ?_, ?_⟩
    · simpa [or_imp, forall_and] using ⟨calm, goes.calm⟩
    · rw [List.filterMap_append, List.append_assoc, ← pushed, ← goes.remaining_eq]
      rfl
    · rw [List.filterMap_append, direct, goes.direct_eq]
      rfl
  · obtain ⟨same, -⟩ | ⟨m, move, mine, -⟩ := h.calls_cases goes hm
    · exact same ▸ h.alone
    · exact h.alone.next move mine
  · rw [← h.parts]
    obtain ⟨same, unpushed, -⟩ | ⟨m, move, -, pushed, flushes, -⟩ := h.calls_cases goes hm
    · have remaining := goes.remaining_eq
      rw [unpushed] at remaining
      rw [same, ← remaining]
      rfl
    · have kept := h.conserved
      refine move.chunks_next kept.capacity_eq kept.room (pushed ▸ goes.remaining_eq) fun flush => ?_
      exact goes.flushes_last (flushes ▸ flush)

/-! ## What follows -/

/-- A job is at work that is no last one: then no last job has begun. -/
theorem Guided.apart (h : Guided batchSize p records complete phase f) (fresh : p.Fresh) {i : Nat}
    {t : Ticket (Job (List R))} (executing : (i, t) ∈ f.pool.executing)
    (group : t.job.endOfStream = false) : ∀ x ∈ f.play.began, x.2.job.endOfStream = false := by
  obtain ⟨poolSteps, hs, -, jobs⟩ := h.exists_poolRun
  have early : phase.order < 4 := by
    by_contra late
    have last := (h.settled (by omega)).executing fresh hs executing
    rw [group] at last
    cases last
  have direct : phase.direct complete = [] := if_neg fun late => by omega
  rw [direct, List.append_nil] at jobs
  intro x hx
  have accepted : x.2 ∈ f.play.accepted :=
    Multiset.mem_of_le (Pool.Play.began_le fresh hs) (List.mem_map_of_mem hx)
  have called : x.2.job ∈ Pool.calls poolSteps := by
    rw [← Multiset.mem_coe, Pool.Play.calls_eq fresh hs]
    simpa using .inr (.inl ⟨_, accepted, rfl⟩)
  obtain ⟨parcel, -, same⟩ := List.mem_map.1 (jobs.mem_iff.1 called)
  rw [← same]
  rfl

/-- The groups that were taken out are the parts of the records when nothing is to be pushed. -/
theorem Guided.taken_eq (h : Guided batchSize p records complete .finished f) :
    f.calls.taken.map (·.group) = Batch.chunks (effectiveSize batchSize) records := by
  have parts := h.parts
  rw [h.flushed (by simp [Phase.order]), show Phase.finished.remaining = ([] : List R) from rfl,
    List.nil_append, Batch.chunks_nil (effectiveSize_pos batchSize), List.append_nil] at parts
  exact parts

/-- When all threads of a pool have ended, the work function was started on the parts of the records
and on the last job. -/
theorem Guided.began_perm (h : Guided batchSize p records complete .finished f) (fresh : p.Fresh)
    (exited : f.pool.Exited) :
    f.play.began.map (·.2.job) ~
      (Batch.chunks (effectiveSize batchSize) records).map .ofContext ++
        (if complete then [.last []] else []) := by
  obtain ⟨poolSteps, hs, calm, jobs⟩ := h.exists_poolRun
  have whole := (Pool.Play.whole fresh hs calm).1
  have began := (Pool.Play.all_done fresh hs calm
    (Pool.Play.jobs_eq_zero fresh hs whole exited)).2.1
  have waiting : f.play.pool.waiting = [] := h.steered.led.welcome h.steered.closed_eq
  have calls : Pool.calls poolSteps ~ f.play.accepted.map (·.job) := by
    rw [← Multiset.coe_eq_coe, Pool.Play.calls_eq fresh hs, waiting, h.steered.unrefused]
    simp
  have called : f.calledJobs ~ (Batch.chunks (effectiveSize batchSize) records).map .ofContext := by
    obtain ⟨steps, hf, -⟩ := h.run
    have all := h.alone.groups_perm (delivered hf) (h.returned (by simp [Phase.order]))
    rw [h.taken_eq] at all
    simpa [calledJobs, Function.comp_def] using (all.map (Job.ofContext)).symm
  have direct : Phase.finished.direct complete =
      (if complete then [.last []] else [] : List (Job (List R))) := by
    cases complete <;> rfl
  calc f.play.began.map (·.2.job)
    _ ~ f.play.accepted.map (·.job) := by simpa [Function.comp_def] using began.map (·.job)
    _ ~ f.calledJobs ++ Phase.finished.direct complete := calls.symm.trans jobs
    _ ~ _ := direct ▸ called.append_right _

end Feed

end BatchPool
