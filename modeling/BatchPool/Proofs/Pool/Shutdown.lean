import BatchPool.Proofs.Pool.Effort
import BatchPool.Proofs.Pool.Joining

/-!
# Shutting a pool down

A running pool whose queue is closed goes on by itself until all its threads have ended, and by then
every job that entered the queue is done.

* `Pool.GoesOn`: the loop, a worker or a refused call can make a step.
* `Sound.goesOn`: so it is while a thread is left: a worker that the loop waits for can itself go on,
  and a work function that waits for room is refused.
* `Pool.Still`: none of them can, and `Still.exited_or`: then all is done.
* `Play.all_done`: what is left when all threads have ended.
* `Play.Drains`: all that follows for a pool that is running and closed.
-/

namespace BatchPool

namespace Pool

variable {J : Type}

/-- The pool goes on by itself: the loop, a worker or a refused call can make a step without a fatal
report. If the step ends a work function, this may end with the given outcome. -/
def GoesOn (p : Pool J) (outcome : Outcome) : Prop :=
  ∃ step, step.inner = true ∧ step.panics = false ∧
    (∀ i other panics, step = .conclude i other panics → other = outcome) ∧
      (p.step? step).isSome = true

/-- No work function shuts the pool down. -/
def Uninvolved (p : Pool J) : Prop := ∀ x ∈ p.shutdowns, ∀ i, x.1 ≠ .worker i

variable {p q : Pool J} {step : Step J} {events : List (Event J)} {i : Nat} {w : Worker J}
  {outcome : Outcome}

/-! ## Who can go on -/

/-- A call that waits for room at a closed queue is refused, and then returns. -/
theorem refused_step {c : Waiting J} (closed : p.closed = true)
    (call : p.waitingOf? c.caller = some c) :
    (p.step? (if c.refused then .rollback c.caller else .refuse c.caller)).isSome = true := by
  cases hc : c.refused with
  | true => simp [step?, Pool.rollback, call, hc]
  | false => simp [step?, Pool.refuse, call, hc, closed]

theorem goesOn_of_waiting {c : Waiting J} (closed : p.closed = true)
    (call : p.waitingOf? c.caller = some c) : p.GoesOn outcome := by
  have hstep := refused_step closed call
  cases hc : c.refused with
  | true =>
    rw [hc, if_pos rfl] at hstep
    exact ⟨_, rfl, rfl, by simp, hstep⟩
  | false =>
    rw [hc, if_neg (by simp)] at hstep
    exact ⟨_, rfl, rfl, by simp, hstep⟩

/-- A thread that is busy, but neither starts the pool nor shuts it down, waits for room. -/
theorem waiting_of_busy (running : p.lifecycle = .running) (uninvolved : p.Uninvolved)
    (busy : p.busy (.worker i) = true) : ∃ c, p.waitingOf? c.caller = some c := by
  simp only [Pool.busy, running, Bool.or_eq_true, Bool.or_false] at busy
  obtain waiting | shutdown := busy
  · cases call : p.waitingOf? (.worker i) with
    | none =>
      obtain ⟨c, hc, mine⟩ := List.any_eq_true.1 waiting
      exact absurd mine (List.find?_eq_none.1 call c hc)
    | some c =>
      have mine : c.caller = .worker i := by simpa using List.find?_some call
      exact ⟨c, mine ▸ call⟩
  · obtain ⟨x, hx, mine⟩ := List.any_eq_true.1 shutdown
    exact absurd (by simpa using mine) (uninvolved x hx i)

theorem goesOn_of_workerStep? (next : p.workerStep? i = some step)
    (possible : (p.step? step).isSome = true) : p.GoesOn outcome := by
  unfold workerStep? at next
  split at next <;> cases next <;> exact ⟨_, rfl, rfl, by simp, possible⟩

theorem goesOn_of_loopStep? (next : p.loopStep? false = some step)
    (possible : (p.step? step).isSome = true) : p.GoesOn outcome := by
  unfold loopStep? at next
  split at next <;> cases next <;> exact ⟨_, rfl, rfl, by simp, possible⟩

/-- A work function that is in no call can end. -/
theorem conclude_isSome {t : Ticket J} (outcome : Outcome) (at_work : p.executing? i = some t)
    (free : p.busy (.worker i) = false) :
    (p.step? (.conclude i outcome false)).isSome = true := by
  unfold executing? at at_work
  split at at_work
  · next here =>
    cases report : outcome.report? i <;> simp [step?, Pool.conclude, here, free, report]
  · cases at_work

/-- A worker that is not at work makes its next step, unless it has its token out or is being handed a
job. -/
theorem Sound.worker_moves (h : p.Sound) (started : p.Started) (running : p.lifecycle = .running)
    (here : p.workers[i]? = some w) (present : w.gone = false) (idle : p.executing? i = none)
    (waits : p.handlesHeld = true → w.ready = false ∧ p.handingTo i = false) :
    ∃ step, p.workerStep? i = some step ∧ (p.step? step).isSome = true := by
  have fits := h.fits i w here
  have born := started.workers i w here (.inl running)
  obtain ⟨phase, ready, slot⟩ := w
  cases phase with
  | unborn => exact absurd rfl born
  | announcing =>
    obtain ⟨rfl, -, -⟩ := fits.of_busy (by simp) (by simp)
    refine ⟨.announce i, by simp [workerStep?, here], ?_⟩
    cases held : p.handlesHeld <;> simp [step?, Pool.announce, here, held]
  | listening =>
    refine ⟨.receive i, by simp [workerStep?, here], ?_⟩
    cases slot with
    | some t => simp [step?, Pool.receive, here]
    | none =>
      cases held : p.handlesHeld with
      | true =>
        obtain ⟨rfl, handing⟩ := waits held
        rw [handing] at fits
        simp [Worker.Fits] at fits
      | false => simp [step?, Pool.receive, here, held]
  | executing t => simp [executing?, here] at idle
  | settling t =>
    exact ⟨.complete i, by simp [workerStep?, here], by simp [step?, Pool.complete, here]⟩
  | stopped => cases present
  | dead t => cases present

/-- The loop makes its next step, unless it waits for a job or for a worker. -/
theorem Sound.loop_moves (h : p.Sound) (started : p.Started) (running : p.lifecycle = .running)
    (alive : p.loop.ended = false)
    (busy : p.loop = .receiving → p.queue = [] → p.closed = true) :
    (∃ step, p.loopStep? false = some step ∧ (p.step? step).isSome = true) ∨
      ∃ w, p.turn? = some w ∧ w.gone = false ∧ w.ready = false ∧ p.handingTo p.cursor = false := by
  obtain ⟨w, turn⟩ : ∃ w, p.turn? = some w := ⟨_, List.getElem?_eq_getElem h.cursor⟩
  cases loop : p.loop with
  | unborn => exact absurd loop (started.loop running)
  | receiving =>
    refine .inl ⟨.take, by simp [loopStep?, loop], ?_⟩
    cases queue : p.queue with
    | nil => simp [step?, Pool.take, loop, queue, busy loop queue]
    | cons t rest => simp [step?, Pool.take, loop, queue]
  | holding t =>
    have next : p.loopStep? false = some .claim := by simp [loopStep?, loop]
    cases ready : w.ready with
    | true => exact .inl ⟨.claim, next, by simp [step?, Pool.claim, loop, turn, ready]⟩
    | false =>
      cases gone : w.gone with
      | true => exact .inl ⟨.claim, next, by simp [step?, Pool.claim, loop, turn, ready, gone]⟩
      | false => exact .inr ⟨w, turn, gone, ready, handingTo_eq_false (by simp [loop]) _⟩
  | handing t =>
    have fits := h.fits_of_handing loop turn
    exact .inl ⟨.hand, by simp [loopStep?, loop],
      by simp [step?, Pool.hand, loop, turn, fits.not_gone, fits.listening]⟩
  | discarding t =>
    exact .inl ⟨.discard false, by simp [loopStep?, loop], by simp [step?, Pool.discard, loop]⟩
  | settling t => exact .inl ⟨.settle, by simp [loopStep?, loop], by simp [step?, Pool.settle, loop]⟩
  | stopped | dead t => simp [loop, Loop.ended] at alive

/-- **A worker goes on, unless it has its token out or is being handed a job.** -/
theorem Sound.worker_goesOn (h : p.Sound) (started : p.Started) (running : p.lifecycle = .running)
    (closed : p.closed = true) (uninvolved : p.Uninvolved) (here : p.workers[i]? = some w)
    (present : w.gone = false)
    (waits : p.handlesHeld = true → w.ready = false ∧ p.handingTo i = false) :
    p.GoesOn outcome := by
  cases at_work : p.executing? i with
  | none =>
    obtain ⟨step, next, possible⟩ := h.worker_moves started running here present at_work waits
    exact goesOn_of_workerStep? next possible
  | some t =>
    cases busy : p.busy (.worker i) with
    | true =>
      obtain ⟨c, call⟩ := waiting_of_busy running uninvolved busy
      exact goesOn_of_waiting closed call
    | false =>
      have possible := conclude_isSome outcome at_work busy
      exact ⟨.conclude i outcome false, rfl, rfl, by simp, possible⟩

/-- **A closed pool goes on while a thread is left.** -/
theorem Sound.goesOn (h : p.Sound) (started : p.Started) (running : p.lifecycle = .running)
    (closed : p.closed = true) (uninvolved : p.Uninvolved) (left : ¬p.Exited) :
    p.GoesOn outcome := by
  cases alive : p.loop.ended with
  | false =>
    obtain ⟨step, next, possible⟩ | ⟨w, turn, present, ready, handing⟩ :=
      h.loop_moves started running alive fun _ _ => closed
    · exact goesOn_of_loopStep? next possible
    · exact h.worker_goesOn started running closed uninvolved turn present fun _ => ⟨ready, handing⟩
  | true =>
    -- The loop has ended, so a worker is left.
    have unheld : p.handlesHeld = false := by simp [handlesHeld, running, alive]
    simp only [exited_iff, alive, true_and, not_forall] at left
    obtain ⟨i, w, here, present⟩ := left
    exact h.worker_goesOn started running closed uninvolved here (by simpa using present)
      (by simp [unheld])

/-! ## Pools that stand still -/

/-- Neither the loop nor a worker can move, and nobody is at work. -/
structure Still (p : Pool J) : Prop where
  loop : ∀ step, p.loopStep? false = some step → p.step? step = none
  workers : ∀ i step, p.workerStep? i = some step → p.step? step = none
  idle : ∀ i, p.executing? i = none

theorem Still.not_worker (still : p.Still) (h : p.Sound) (started : p.Started)
    (running : p.lifecycle = .running) (here : p.workers[i]? = some w) (present : w.gone = false) :
    ¬(p.handlesHeld = true → w.ready = false ∧ p.handingTo i = false) := by
  intro waits
  obtain ⟨step, next, possible⟩ := h.worker_moves started running here present (still.idle i) waits
  rw [still.workers i step next] at possible
  cases possible

/-- No worker has a job in a pool that stands still. -/
theorem Still.at_worker (still : p.Still) (h : p.Sound) (started : p.Started)
    (running : p.lifecycle = .running) (here : p.workers[i]? = some w) :
    w.slot = none ∧ ∀ t, w.phase ≠ .executing t ∧ w.phase ≠ .settling t := by
  have fits := h.fits i w here
  refine ⟨?_, fun t => ⟨fun phase => ?_, fun phase => ?_⟩⟩
  · by_contra slot
    obtain ⟨t, slot⟩ := Option.ne_none_iff_exists'.1 slot
    obtain ⟨phase, ready, handing⟩ := fits.of_slot slot
    exact still.not_worker h started running here (by simp [Worker.gone, phase])
      fun _ => ⟨ready, handing⟩
  · have idle := still.idle i
    obtain ⟨phase', ready, slot⟩ := w
    cases phase
    simp [executing?, here] at idle
  · obtain ⟨ready, -, handing⟩ := fits.of_busy (by simp [phase]) (by simp [phase])
    exact still.not_worker h started running here (by simp [Worker.gone, phase])
      fun _ => ⟨ready, handing⟩

/-- **A running pool stands still if all its threads have ended, or if its queue is open and there is
no job in it.** -/
theorem Still.exited_or (still : p.Still) (h : p.Sound) (started : p.Started)
    (running : p.lifecycle = .running) : p.Exited ∨ p.closed = false ∧ p.jobs = 0 := by
  cases alive : p.loop.ended with
  | true =>
    have unheld : p.handlesHeld = false := by simp [handlesHeld, running, alive]
    refine .inl (exited_iff.2 ⟨alive, fun i w here => ?_⟩)
    by_contra present
    exact still.not_worker h started running here (by simpa using present) (by simp [unheld])
  | false =>
    have waiting : ¬(p.loop = .receiving → p.queue = [] → p.closed = true) := by
      intro busy
      obtain ⟨step, next, possible⟩ | ⟨w, turn, present, ready, handing⟩ :=
        h.loop_moves started running alive busy
      · rw [still.loop step next] at possible
        cases possible
      · exact still.not_worker h started running turn present fun _ => ⟨ready, handing⟩
    simp only [Classical.not_imp, Bool.not_eq_true] at waiting
    obtain ⟨loop, queue, unclosed⟩ := waiting
    have at_mem : ∀ w ∈ p.workers,
        w.slot = none ∧ ∀ t, w.phase ≠ .executing t ∧ w.phase ≠ .settling t := by
      intro w hw
      obtain ⟨i, here⟩ := List.mem_iff_getElem?.1 hw
      exact still.at_worker h started running here
    -- Calls that wait are not counted here.
    have rest : ({ p with waiting := [] } : Pool J).AtRest := {
      waiting := rfl
      queue := queue
      loop := by simp [loop, Loop.undecided, Loop.leftover]
      slots := fun w hw => (at_mem w hw).1
      workers := fun w hw => (at_mem w hw).2 }
    exact .inr ⟨unclosed, (Nat.add_eq_zero_iff.1 (atRest_iff.1 rest)).2⟩

/-! ## Runs -/

namespace Play

variable {steps : List (Step J)} {s : Play J}

theorem uninvolved (hp : p.Fresh) (hs : Play.run? { pool := p } steps = some s)
    (work : ∀ i, .shutDown (.worker i) ∉ steps) : s.pool.Uninvolved := by
  refine run_induction
    (motive := fun steps s => (∀ i, .shutDown (.worker i) ∉ steps) → s.pool.Uninvolved) ?_ ?_ hs work
  · intro _ x hx
    rw [hp.shutdowns] at hx
    cases hx
  · intro steps s step q es hs ih hm work
    have before := ih fun i h => work i (List.mem_append_left _ h)
    have now : ∀ i, step ≠ .shutDown (.worker i) := fun i h => work i (by simp [h])
    intro x hx i
    cases hm with
    | shutDown =>
      obtain old | new := List.mem_append.1 hx
      · exact before x old i
      · rw [List.mem_singleton.1 new]
        rintro rfl
        exact now i rfl
    | retire | collect | join =>
      obtain ⟨y, hy, rfl⟩ := List.mem_map.1 hx
      have := before y hy i
      split <;> simp_all
    | finish => exact before x (List.mem_of_mem_filter hx) i
    | _ => exact before x hx i

/-- Only a pool whose start succeeded runs. -/
theorem running_of_started (hs : Play.run? { pool := p } steps = some s)
    {caller : Thread} (started : .startEnded caller (.ok ()) ∈ s.history) :
    s.pool.lifecycle = .running := by
  refine run_induction
    (motive := fun _ s => .startEnded caller (.ok ()) ∈ s.history → s.pool.lifecycle = .running)
    ?_ ?_ hs started
  · intro h
    cases h
  · intro steps s step q es hs ih hm started
    simp only [record, List.mem_append, List.mem_reverse] at started
    obtain now | before := started
    · cases hm with
      | spawnLoop => rfl
      | close | shutDown | join => split at now <;> simp at now
      | _ => simp [failStart] at now
    · exact hm.running_next (ih before)

/-- A pool without threads has no job any more, if none of them was killed. -/
theorem jobs_eq_zero (hp : p.Fresh) (hs : Play.run? { pool := p } steps = some s)
    (whole : s.pool.Whole) (exited : s.pool.Exited) : s.pool.jobs = 0 := by
  have sound := hp.sound.of_run hs
  obtain ⟨ended, gone⟩ := exited_iff.1 exited
  have loop := whole.stopped_of_ended ended
  have stopped : ∀ (i : Nat) (w : Worker J), s.pool.workers[i]? = some w → w.phase = .stopped :=
    fun i w here => whole.stopped_of_gone here (gone i w here)
  have at_mem : ∀ w ∈ s.pool.workers, w.slot = none ∧ w.phase = .stopped := by
    intro w hw
    obtain ⟨i, here⟩ := List.mem_iff_getElem?.1 hw
    have fits := sound.fits i w here
    simp only [Worker.Fits, stopped i w here] at fits
    exact ⟨fits.1, stopped i w here⟩
  -- Calls that wait are not counted here.
  have rest : ({ s.pool with waiting := [] } : Pool J).AtRest := {
    waiting := rfl
    queue := (ended_of_stopped hp hs loop).2
    loop := by simp [loop, Loop.undecided, Loop.leftover]
    slots := fun w hw => (at_mem w hw).1
    workers := fun w hw t => by simp [(at_mem w hw).2] }
  exact (Nat.add_eq_zero_iff.1 (atRest_iff.1 rest)).2

/-- Every job that entered the queue is done, once there is none in the pool. -/
theorem all_done (hp : p.Fresh) (hs : Play.run? { pool := p } steps = some s)
    (calm : ∀ step ∈ steps, step.panics = false) (none : s.pool.jobs = 0) :
    s.pool.queue = [] ∧ (s.began.map (·.2)).Perm s.accepted ∧
      (s.ended.map (·.2)).Perm s.accepted := by
  simp only [jobs, Nat.add_eq_zero_iff, List.length_eq_zero_iff, List.append_eq_nil_iff] at none
  obtain ⟨⟨⟨⟨queue, undecided, -⟩, slots⟩, executing⟩, -⟩ := none
  have handed : ((s.handed.map (·.2) : List _) : Multiset (Ticket J)) = s.accepted := by
    rw [coe_accepted hp hs calm, ahead, undecided, queue]
    simp
  have began : (s.began : Multiset (Nat × Ticket J)) = s.handed := by
    rw [← slots_add hp hs, slots]
    simp
  have ended : (s.ended : Multiset (Nat × Ticket J)) = s.began := by
    rw [← executing_add hp hs, executing]
    simp
  have all := (Multiset.coe_eq_coe.1 began).map (·.2) |>.trans (Multiset.coe_eq_coe.1 handed)
  exact ⟨queue, all, ((Multiset.coe_eq_coe.1 ended).map (·.2)).trans all⟩

/-- A running pool whose queue is closed drains. The given steps have led to it. -/
structure Drains (steps : List (Step J)) (s : Play J) : Prop where
  /-- While a thread is left, the pool goes on by itself, however a work function ends. -/
  progress : ¬s.pool.Exited → ∀ outcome, s.pool.GoesOn outcome
  /-- In every run from here, the steps that the pool makes by itself are limited. -/
  bounded : ∀ rest t, s.run? rest = some t →
    rest.countP Step.inner ≤ s.pool.effort + 2 * rest.countP Step.enqueues
  /-- It does not go on for ever, with calls of work functions among its steps, if the work function
  makes only finitely many calls for each job. -/
  finite : ∀ plays moves, (∀ n, (moves n).inner = true ∨ (moves n).nested = true) →
    (∀ t ∈ s.accepted, {n | (plays n).CallsFor (moves n) t}.Finite) → ¬s.Endless plays moves
  /-- No job enters the queue any more. -/
  shut : ∀ rest t, s.run? rest = some t → t.accepted = s.accepted
  /-- No call is blocked: one that waits for room is refused, and then returns. -/
  refused : ∀ c ∈ s.pool.waiting,
    (s.pool.step? (if c.refused then .rollback c.caller else .refuse c.caller)).isSome = true
  /-- The job of a call that has returned entered the queue, or was refused. -/
  answered : (calls steps : Multiset J) = (s.pool.waiting.map (·.job) : Multiset J) +
    (s.accepted.map (·.job) : Multiset J) + (s.refused : Multiset J)
  /-- Once all threads have ended, the queue is empty. -/
  queue : s.pool.Exited → s.pool.queue = []
  /-- Then the work function was started, and has ended, once on every job that entered it. -/
  done : s.pool.Exited → s.accepted.Nodup ∧ (s.began.map (·.2)).Perm s.accepted ∧
    (s.ended.map (·.2)).Perm s.accepted
  /-- In flight are then only the calls that have still to be refused. -/
  inFlight : s.pool.Exited → s.pool.inFlight = s.pool.waiting.length
  /-- If the pool does not go on by itself, all threads have ended and no call waits. -/
  settled : (∀ outcome, ¬s.pool.GoesOn outcome) →
    s.pool.Exited ∧ s.pool.waiting = [] ∧ s.pool.inFlight = 0
  /-- Once a call has taken over the threads and no call that shuts the pool down is left, all
  threads have ended. -/
  joined : s.pool.dropped = false → s.pool.threads = [] → s.pool.shutdowns = [] → s.pool.Exited

/-- **A running pool whose queue is closed drains.** -/
theorem drains {c : PoolConfig} {processors : Nat} (hp : create c processors = .ok p)
    (hs : Play.run? { pool := p } steps = some s)
    (started : ∃ caller, .startEnded caller (.ok ()) ∈ s.history) (closed : s.pool.closed = true)
    (calm : ∀ step ∈ steps, step.panics = false) (work : ∀ i, .shutDown (.worker i) ∉ steps) :
    s.Drains steps := by
  have fresh := Fresh.of_create hp
  have running : s.pool.lifecycle = .running := started.elim fun _ => running_of_started hs
  have sound := fresh.sound.of_run hs
  have free := uninvolved fresh hs work
  have whole := (whole fresh hs calm).1
  have progress : ¬s.pool.Exited → ∀ outcome, s.pool.GoesOn outcome := fun left _ =>
    sound.goesOn (Play.started fresh hs) running closed free left
  have waiting : ∀ c ∈ s.pool.waiting, s.pool.waitingOf? c.caller = some c := fun c hc =>
    find?_of_mem Waiting.caller (waiting_callers fresh hs) hc
  have done := fun exited => all_done fresh hs calm (jobs_eq_zero fresh hs whole exited)
  have inFlight : s.pool.Exited → s.pool.inFlight = s.pool.waiting.length := by
    intro exited
    rw [inFlight_eq fresh hs, jobs_eq_zero fresh hs whole exited, lost_eq_nil calm hs]
    rfl
  exact {
    progress := progress
    bounded := fun rest t h => by
      have := inner_le running closed h
      omega
    finite := fun plays moves own few endless => by
      obtain ⟨t, ht, calls⟩ := endless_calls fresh hs running closed endless own
      exact calls (few t ht)
    shut := fun rest t h => (shut_run closed h).2
    refused := fun c hc => refused_step closed (waiting c hc)
    answered := calls_eq fresh hs
    queue := fun exited => (done exited).1
    done := fun exited => ⟨accepted_nodup fresh hs, (done exited).2⟩
    inFlight := inFlight
    settled := fun still => by
      have exited : s.pool.Exited := Classical.byContradiction fun left =>
        still .done (progress left .done)
      have none : s.pool.waiting = [] := List.eq_nil_iff_forall_not_mem.2 fun c hc =>
        still .done (goesOn_of_waiting closed (waiting c hc))
      exact ⟨exited, none, by rw [inFlight exited, none]; rfl⟩
    joined := fun kept threads returned => exited_of_joined fresh hs running kept threads returned }

/-- A pool of one worker with room for one job in the queue. -/
def narrowPool : Pool Nat := { name := "a", capacity := 1, workers := [{}] }

/-- A run of this pool up to the closing of its queue: job 10, which is at work, waits for room for
job 30, since job 20 is in the queue. -/
def closingRun : List (Step Nat) :=
  [.start (.client 0), .spawn false, .spawn false, .announce 0, .enqueue (.client 0) 10,
    .insert (.client 0), .take, .claim, .hand, .receive 0, .enqueue (.client 0) 20,
    .insert (.client 0), .enqueue (.worker 0) 30, .close (.client 1)]

/-- The steps up to the end of its threads. -/
def drainingRun : List (Step Nat) :=
  [.take, .refuse (.worker 0), .rollback (.worker 0), .conclude 0 (.panicked none) false,
    .complete 0, .announce 0, .claim, .hand, .take, .receive 0, .conclude 0 .done false,
    .complete 0, .announce 0]

theorem drains_closingRun :
    ∃ s t, Play.run? { pool := narrowPool } closingRun = some s ∧ s.run? drainingRun = some t ∧
      ¬s.pool.Exited ∧ s.Drains closingRun ∧ t.pool.Exited ∧
        t.Drains (closingRun ++ drainingRun) :=
  have made : create { queueCapacity := 1, workerCount := some 1, threadName := "a" } 1 =
    .ok narrowPool := rfl
  ⟨_, _, rfl, rfl, by decide,
    drains made rfl ⟨.client 0, by simp [record]⟩ rfl (by decide) (by simp [closingRun]),
    by decide,
    drains made rfl ⟨.client 0, by simp [record]⟩ rfl (by decide)
      (by simp [closingRun, drainingRun])⟩

end Play

end Pool

end BatchPool
