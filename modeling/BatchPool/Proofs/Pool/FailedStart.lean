import BatchPool.Proofs.Pool.Lifecycle
import BatchPool.Proofs.Pool.Toil
import BatchPool.Proofs.Pool.TurnedAway

/-!
# A start that fails

If a thread fails to start, the call that was to start the pool returns an error that names the thread.
The pool is closed then and does nothing any more: the workers that did start end by themselves, and all
calls return.

* `Pool.Untouched`: no worker was ever given a job. So it is as long as the loop was not started.
* `Pool.Joins`: only threads that were started are joined.
* `Play.Halted`: what every step keeps after such a start, and `Play.Inert`: what holds then, however
  the run goes on.
* `Play.FailedStart`: all that follows.
-/

namespace BatchPool

namespace Pool

variable {J : Type}

/-- The worker was never given a job: it was not started, or is somewhere in its first handshake, or has
stopped. -/
def Worker.Untouched (w : Worker J) : Prop :=
  w.slot = none ∧
    (w.phase = .unborn ∨ w.phase = .announcing ∨ w.phase = .listening ∨ w.phase = .stopped)

/-- No worker was ever given a job. -/
def Untouched (p : Pool J) : Prop :=
  ∀ (i : Nat) (w : Worker J), p.workers[i]? = some w → w.Untouched

/-- The worker was started. -/
def Alive (i : Nat) (p : Pool J) : Prop := ∃ w, p.workers[i]? = some w ∧ w.phase ≠ .unborn

/-- Only the given threads are taken over and joined. -/
structure Joins (known : List Thread) (p : Pool J) : Prop where
  threads : ∀ thread ∈ p.threads, thread ∈ known
  joining : ∀ caller rest, (caller, .joining rest) ∈ p.shutdowns → ∀ thread ∈ rest, thread ∈ known

variable {p q : Pool J} {step : Step J} {events : List (Event J)} {i : Nat}

/-! ## Pools without a loop -/

theorem Moves.unborn_before (hm : Moves p step q events) (unborn : q.loop = .unborn) :
    p.loop = .unborn := by
  cases hm with
  | spawnLoop | take | stopLoop | claim | claimGone | hand | handGone | discard | discardFatal
  | settle => cases unborn
  | _ => exact unborn

/-- **As long as the loop was not started, no worker is given a job**, and none is lost. -/
theorem Untouched.next (h : p.Untouched) (hm : Moves p step q events) (unborn : p.loop = .unborn) :
    q.Untouched ∧ events.filterMap Event.lost? = [] := by
  cases hm with
  | take loop | stopLoop loop | claim loop | claimGone loop | hand loop | handGone loop
  | discard loop | discardFatal loop | settle loop =>
    rw [unborn] at loop
    cases loop
  | @spawnWorker _ n w _ here =>
    refine ⟨forall_set here ?_ fun j v _ => h j v, rfl⟩
    exact ⟨(h n w here).1, .inr (.inl rfl)⟩
  | @announce i w here =>
    refine ⟨forall_set here ?_ fun j v _ => h j v, rfl⟩
    exact ⟨(h i w here).1, .inr (.inr (.inl rfl))⟩
  | @announceStops i w here | @receiveStops i w here =>
    refine ⟨forall_set here ?_ fun j v _ => h j v, rfl⟩
    exact ⟨(h i w here).1, .inr (.inr (.inr rfl))⟩
  | @receive i w t here _ slot =>
    have empty := (h i w here).1
    rw [slot] at empty
    cases empty
  | @conclude i w t _ _ here phase | @concludeReported i w t _ _ here phase
  | @concludeFatal i w t _ _ here phase | @complete i w t here phase =>
    have idle := (h i w here).2
    simp [phase] at idle
  | _ => exact ⟨h, by simp [List.filterMap_cons, Event.lost?, failStart]⟩

/-- A worker that was started stays so. -/
theorem Sound.alive_next (h : p.Sound) (hm : Moves p step q events) (alive : p.Alive i) :
    q.Alive i := by
  obtain ⟨w, here, born⟩ := alive
  obtain ⟨same, -⟩ | ⟨j, v, v', hv, set, change⟩ := h.change hm
  · exact ⟨w, by rw [same]; exact here, born⟩
  · by_cases mine : j = i
    · subst mine
      rw [here] at hv
      cases hv
      refine ⟨v', ?_, ?_⟩
      · rw [set, List.getElem?_set_self (List.getElem?_eq_some_iff.1 here).1]
      · cases change <;> simp_all
    · exact ⟨w, by rw [set, List.getElem?_set_ne mine]; exact here, born⟩

/-- A pool that failed to start stays so, and starts no thread. -/
theorem Moves.failed_next (hm : Moves p step q events) (failed : p.lifecycle = .failed) :
    q.lifecycle = .failed ∧ events.filterMap Event.born? = [] := by
  cases hm with
  | startFirst _ lifecycle | spawnFails lifecycle | spawnWorker lifecycle | spawnLoop lifecycle =>
    rw [failed] at lifecycle
    cases lifecycle
  | retire | drop => exact ⟨by simp [failed], rfl⟩
  | _ => exact ⟨failed, by simp [List.filterMap_cons, Event.born?]⟩

/-! ## Joining -/

theorem Joins.mono {known more : List Thread} (h : p.Joins known) (grows : ∀ x ∈ known, x ∈ more) :
    p.Joins more where
  threads := fun x hx => grows x (h.threads x hx)
  joining := fun caller rest mem x hx => grows x (h.joining caller rest mem x hx)

/-- **Only threads that were started are joined.** -/
theorem Joins.next {known : List Thread} (h : p.Joins known) (hm : Moves p step q events) :
    q.Joins (known ++ events.filterMap Event.born?) := by
  have old := h.mono fun x hx => List.mem_append_left (events.filterMap Event.born?) hx
  cases hm with
  | spawnWorker | spawnLoop =>
    refine ⟨fun x hx => ?_, old.joining⟩
    obtain before | new := List.mem_append.1 hx
    · exact old.threads x before
    · exact List.mem_append_right _ (by simpa [List.filterMap_cons, Event.born?] using new)
  | shutDown =>
    refine ⟨old.threads, fun caller rest mem => ?_⟩
    obtain before | new := List.mem_append.1 mem
    · exact old.joining caller rest before
    · simp at new
  | retire =>
    refine ⟨old.threads, fun caller rest mem => ?_⟩
    obtain before | new := mem_of_mem_setShutdown mem
    · exact old.joining caller rest before
    · cases new
  | collect =>
    refine ⟨by simp, fun caller rest mem => ?_⟩
    obtain before | new := mem_of_mem_setShutdown mem
    · exact old.joining caller rest before
    · cases new
      exact old.threads
  | join call =>
    refine ⟨old.threads, fun caller rest mem => ?_⟩
    obtain before | new := mem_of_mem_setShutdown mem
    · exact old.joining caller rest before
    · cases new
      exact fun x hx => old.joining _ _ (mem_of_shutdownOf? call) x (List.mem_cons_of_mem _ hx)
  | finish =>
    exact ⟨old.threads, fun caller rest mem => old.joining caller rest (List.mem_of_mem_filter mem)⟩
  | drop => exact ⟨by simp, old.joining⟩
  | _ => exact ⟨old.threads, old.joining⟩

/-! ## Who can go on -/

/-- A worker that was started, and was never given a job, ends by its next step once it cannot hear from
the loop any more. -/
theorem Untouched.exits (h : p.Untouched) (unheld : p.handlesHeld = false) (alive : p.Alive i) :
    p.exited (.worker i) = true ∨
      ∃ step q, p.workerStep? i = some step ∧
        p.step? step = some (q, [.logged (.worker i) (.workerStopped i)]) ∧
          q.exited (.worker i) = true := by
  obtain ⟨w, here, born⟩ := alive
  obtain ⟨empty, phase⟩ := h i w here
  have less := (List.getElem?_eq_some_iff.1 here).1
  have exits : ∀ v : Worker J, v.gone = true →
      ({ p with workers := p.workers.set i v } : Pool J).exited (.worker i) = true := fun v gone =>
    exited_worker_iff.2 ⟨v, by rw [List.getElem?_set_self less], gone⟩
  obtain unborn | announcing | listening | stopped := phase
  · exact absurd unborn born
  · have next : p.workerStep? i = some (.announce i) := by
      obtain ⟨phase, ready, slot⟩ := w
      cases announcing
      simp [workerStep?, here]
    exact .inr ⟨_, _, next, (Moves.announceStops here announcing unheld).step?_eq, exits _ rfl⟩
  · have next : p.workerStep? i = some (.receive i) := by
      obtain ⟨phase, ready, slot⟩ := w
      cases listening
      simp [workerStep?, here]
    exact .inr ⟨_, _, next, (Moves.receiveStops here listening empty unheld).step?_eq, exits _ rfl⟩
  · exact .inl (exited_worker_iff.2 ⟨w, here, by simp [Worker.gone, stopped]⟩)

/-- Nothing is in the pool then but what is in the queue. -/
theorem Untouched.jobs_eq (h : p.Untouched) (unborn : p.loop = .unborn) :
    p.jobs = p.queue.length := by
  have empty : ∀ w ∈ p.workers, w.Untouched := fun w hw => by
    obtain ⟨i, here⟩ := List.mem_iff_getElem?.1 hw
    exact h i w here
  -- The queue and the calls that wait are left out here.
  have rest : ({ p with waiting := [], queue := [] } : Pool J).AtRest := {
    waiting := rfl
    queue := rfl
    loop := by simp [unborn, Loop.undecided, Loop.leftover]
    slots := fun w hw => (empty w hw).1
    workers := fun w hw t => by
      constructor <;> intro phase <;> simpa [phase] using (empty w hw).2 }
  have none : 0 + (0 + (p.loop.undecided ++ p.loop.leftover).length + p.slots.length +
    p.executing.length + p.settling.length) = 0 := atRest_iff.1 rest
  unfold jobs
  omega

theorem beginner?_of_workerStep? (next : p.workerStep? i = some step) :
    step.beginner? = none ∧ step ≠ .drop := by
  unfold workerStep? at next
  split at next <;> cases next <;> exact ⟨rfl, nofun⟩

/-- A call that shuts the pool down goes on, unless it waits for a thread to end. -/
theorem shutdown_moves (failed : p.lifecycle = .failed) {caller : Thread} {stage : Shutdown}
    (call : p.shutdownOf? caller = some stage)
    (ended : ∀ thread rest, stage = .joining (thread :: rest) → p.exited thread = true) :
    ∃ step : Step J, step.beginner? = none ∧ step ≠ .drop ∧ (p.step? step).isSome = true := by
  cases stage with
  | retiring => exact ⟨.retire caller, rfl, by simp, (Moves.retire call).isSome_step?⟩
  | collecting =>
    have unlocked : p.threadsLocked = false := by simp [threadsLocked, failed]
    exact ⟨.collect caller, rfl, by simp, (Moves.collect call unlocked).isSome_step?⟩
  | joining threads =>
    cases threads with
    | nil => exact ⟨.finish caller, rfl, by simp, (Moves.finish call).isSome_step?⟩
    | cons thread rest =>
      have joins := Moves.join call (ended thread rest rfl)
      exact ⟨.join caller, rfl, by simp, joins.isSome_step?⟩

/-! ## Runs -/

namespace Play

variable {steps rest : List (Step J)} {s t u : Play J} {k : Nat}

theorem name_eq (hs : Play.run? { pool := p } steps = some s) : s.pool.name = p.name :=
  run_induction (motive := fun _ s => s.pool.name = p.name) rfl
    (fun _ _ _ _ _ _ ih hm => hm.name_eq.trans ih) hs

/-- As long as the loop was not started, no worker was given a job, and none was lost. -/
theorem untouched (hp : p.Fresh) (hs : Play.run? { pool := p } steps = some s)
    (unborn : s.pool.loop = .unborn) : s.pool.Untouched ∧ s.lost = [] := by
  refine run_induction
    (motive := fun _ s => s.pool.loop = .unborn → s.pool.Untouched ∧ s.lost = []) ?_ ?_ hs unborn
  · intro _
    refine ⟨fun i w here => ?_, rfl⟩
    rw [hp.workers i w here]
    exact ⟨rfl, .inl rfl⟩
  · intro steps s step q es _ ih hm unborn
    have before := hm.unborn_before unborn
    obtain ⟨untouched, lost⟩ := ih before
    obtain ⟨next, now⟩ := untouched.next hm before
    exact ⟨next, by rw [Play.lost, events_next, now, List.append_nil]; exact lost⟩

/-- The jobs that were accepted are all in the queue then, and none was begun. -/
theorem kept_of_unborn (hp : p.Fresh) (hs : Play.run? { pool := p } steps = some s)
    (unborn : s.pool.loop = .unborn) : s.began = [] ∧ s.pool.queue = s.accepted ∧
      s.pool.inFlight = s.pool.waiting.length + s.accepted.length := by
  obtain ⟨untouched, lost⟩ := untouched hp hs unborn
  have none := assigned_of_unborn hs unborn
  have queue : s.pool.queue = s.accepted := by
    rw [accepted_eq hp hs, none, ahead, unborn]
    rfl
  refine ⟨List.eq_nil_iff_forall_not_mem.2 fun x hx => ?_, queue, ?_⟩
  · have assigned := handed_subset s (began_subset hp hs hx)
    rw [none] at assigned
    cases assigned
  · rw [inFlight_eq hp hs, untouched.jobs_eq unborn, lost, queue]
    rfl

/-- Only threads that were started are joined. -/
theorem joins_born (hp : p.Fresh) (hs : Play.run? { pool := p } steps = some s) :
    s.pool.Joins s.born := by
  refine run_induction (motive := fun _ s => s.pool.Joins s.born) ?_ ?_ hs
  · exact ⟨by simp [hp.threads], by simp [hp.shutdowns]⟩
  · intro steps s step q es _ ih hm
    rw [born, events_next]
    exact ih.next hm

/-- What holds of a play when a start has failed before it, behind the play `s`, at the thread number
`k`. -/
structure Inert (k : Nat) (s u : Play J) : Prop where
  /-- The queue is closed. A call that is to enqueue a job is turned away. -/
  turnsAway : u.TurnsAway
  /-- The jobs that were accepted before stay in the queue, and no other enters it. -/
  accepted : u.accepted = s.accepted ∧ u.pool.queue = s.accepted
  /-- They are in flight, and so are the calls that are still to return. -/
  inFlight : u.pool.inFlight = u.pool.waiting.length + s.accepted.length
  /-- The work function was started on no job. -/
  began : u.began = []
  /-- No thread is started any more, or tried to. -/
  spawn : u.born = s.born ∧ ∀ fails, u.step? (.spawn fails) = none
  /-- A call that is to start the pool is told that it is already running. -/
  start : ∀ caller, u.pool.mayCall caller = true →
    u.step? (.start caller) = some (u.record [.startEnded caller (.error .alreadyRunning)])
  /-- A worker that was started has ended, or does so by its next step, which is possible. -/
  workers : ∀ i < k, u.pool.exited (.worker i) = true ∨
    ∃ step v, u.pool.workerStep? i = some step ∧ u.step? step = some v ∧
      v.pool.exited (.worker i) = true
  /-- No other threads are joined. -/
  joins : ∀ caller rest, (caller, .joining rest) ∈ u.pool.shutdowns →
    ∀ thread ∈ rest, ∃ i < k, thread = .worker i
  /-- When no step is possible but a new call, all calls have returned, and all workers that were
  started have ended. -/
  settled : (∀ step : Step J, step.beginner? = none → step ≠ .drop → u.step? step = none) →
    u.pool.waiting = [] ∧ u.pool.shutdowns = [] ∧ ∀ i < k, u.pool.exited (.worker i) = true

/-- The start of a pool of `n` workers and the given name fails at the thread number `k`, between the
plays `s` and `t`. -/
structure FailedStart (n : Nat) (name : String) (caller : Thread) (k : Nat) (s t : Play J) :
    Prop where
  /-- The threads that were started are the first workers. -/
  started : k ≤ n ∧ s.born = (List.range k).map .worker
  /-- The call returns an error that names the thread that was not. -/
  error : let thread := if k < n then name ++ "-worker-" ++ toString k else name ++ "-dispatch"
    t.history = .startEnded caller (.error (.notStarted thread)) ::
      .logged caller (.notStarted (.notStarted thread)) :: s.history
  /-- The work function was started on no job before. -/
  unstarted : s.began = []
  /-- The pool does nothing any more, however the run goes on. -/
  later : ∀ rest u, t.run? rest = some u → s.Inert k u
  /-- In every run from here, the steps are limited, but for those that new calls bring in. -/
  bounded : ∀ rest u, t.run? rest = some u →
    rest.length ≤ t.pool.toil 0 + (rest.map (·.price 0)).sum

/-- What every step keeps when a start has failed behind the play `s`, at the thread number `k`. -/
structure Halted (k : Nat) (s u : Play J) : Prop where
  sound : u.pool.Sound
  failed : u.pool.lifecycle = .failed
  closed : u.pool.closed = true
  born : u.born = s.born
  accepted : u.accepted = s.accepted
  alive : ∀ i < k, u.pool.Alive i

/-- So it is right behind a start that has failed. -/
theorem halted_of_failure (sound : s.pool.Sound) (begun : s.pool.Started) {caller : Thread}
    (starting : s.pool.lifecycle = .starting caller k) (le : k ≤ s.pool.workerCount)
    (ht : s.step? (.spawn true) = some t) : s.Halted k t := by
  obtain ⟨q, es, hm, rfl⟩ := moves_of_step? ht
  have next := sound.next hm
  cases hm with
  | spawnFails =>
    refine ⟨next, rfl, rfl, ?_, ?_, fun i less => ?_⟩
    · simp [Play.born, events_next, List.filterMap_cons, Event.born?, failStart]
    · simp [accepted_eq_events, events_next, List.filterMap_cons, Event.accepted?, failStart]
    · have less' : i < s.pool.workers.length := Nat.lt_of_lt_of_le less le
      have here := List.getElem?_eq_getElem less'
      exact ⟨_, here, begun.workers i _ here (.inr ⟨caller, k, starting, less⟩)⟩

theorem Halted.next (h : s.Halted k u) (hm : Moves u.pool step q events) :
    s.Halted k ({ u with pool := q }.record events) := by
  obtain ⟨failed, unborn⟩ := hm.failed_next h.failed
  exact {
    sound := h.sound.next hm
    failed := failed
    closed := hm.closed_next h.closed
    born := by
      rw [Play.born, events_next, unborn, List.append_nil]
      exact h.born
    accepted := by
      rw [accepted_eq_events, events_next, hm.accepted_eq_nil h.closed, List.append_nil]
      exact h.accepted
    alive := fun i less => h.sound.alive_next hm (h.alive i less) }

theorem halted (hp : p.Fresh) (hs : Play.run? { pool := p } steps = some s) {caller : Thread}
    (starting : s.pool.lifecycle = .starting caller k) (le : k ≤ p.workerCount)
    (ht : s.step? (.spawn true) = some t) (h : t.run? rest = some u) : s.Halted k u :=
  run_preserves (motive := s.Halted k)
    (halted_of_failure (hp.sound.of_run hs) (Play.started hp hs) starting (workerCount_eq hs ▸ le) ht)
    (fun _ _ _ _ before hm => before.next hm) h

/-- When no step is possible but a new call, all calls have returned and the workers that were started
have ended, as no other threads are joined. -/
theorem Halted.settled (h : s.Halted k u) (hp : p.Fresh)
    (hs : Play.run? { pool := p } steps = some u)
    (joins : ∀ caller rest, (caller, .joining rest) ∈ u.pool.shutdowns →
      ∀ thread ∈ rest, ∃ i < k, thread = .worker i)
    (still : ∀ step : Step J, step.beginner? = none → step ≠ .drop → u.step? step = none) :
    u.pool.waiting = [] ∧ u.pool.shutdowns = [] ∧ ∀ i < k, u.pool.exited (.worker i) = true := by
  have unborn : u.pool.loop = .unborn := h.sound.unstarted (by simp [h.failed])
  have unheld : u.pool.handlesHeld = false := by simp [handlesHeld, h.failed]
  have blocked : ∀ step : Step J, step.beginner? = none → step ≠ .drop →
      (u.pool.step? step).isSome ≠ true := fun step began other possible => by
    rw [← isSome_step?, still step began other] at possible
    cases possible
  have exited : ∀ i < k, u.pool.exited (.worker i) = true := fun i less => by
    obtain exited | ⟨step, q, next, possible, -⟩ :=
      (untouched hp hs unborn).1.exits unheld (h.alive i less)
    · exact exited
    · obtain ⟨began, other⟩ := beginner?_of_workerStep? next
      exact absurd (by rw [possible]; rfl) (blocked step began other)
  have waiting : u.pool.waiting = [] := List.eq_nil_iff_forall_not_mem.2 fun c hc => by
    have call := find?_of_mem Waiting.caller (waiting_callers hp hs) hc
    have possible := refused_step h.closed call
    refine blocked _ ?_ ?_ possible <;> split <;> simp [Step.beginner?]
  refine ⟨waiting, List.eq_nil_iff_forall_not_mem.2 fun x hx => ?_, exited⟩
  obtain ⟨caller, stage⟩ := x
  have call := (mem_shutdowns_iff (shutdowns_callers hp hs)).1 hx
  obtain ⟨step, began, other, possible⟩ := shutdown_moves h.failed call fun thread more joining => by
    subst joining
    obtain ⟨i, less, rfl⟩ := joins caller _ hx thread List.mem_cons_self
    exact exited i less
  exact blocked step began other possible

/-- **A pool whose start has failed does nothing any more.** -/
theorem inert (hp : p.Fresh) (hs : Play.run? { pool := p } steps = some s) {caller : Thread}
    (starting : s.pool.lifecycle = .starting caller k) (le : k ≤ p.workerCount)
    (born : s.born = (List.range k).map .worker) (ht : s.step? (.spawn true) = some t)
    (h : t.run? rest = some u) : s.Inert k u := by
  have whole : Play.run? { pool := p } (steps ++ .spawn true :: rest) = some u := by
    refine run?_trans hs ?_
    simp only [run?, ht, h]
  have halted := halted hp hs starting le ht h
  have unborn : u.pool.loop = .unborn := halted.sound.unstarted (by simp [halted.failed])
  have unheld : u.pool.handlesHeld = false := by simp [handlesHeld, halted.failed]
  obtain ⟨began, queue, inFlight⟩ := kept_of_unborn hp whole unborn
  have joins : ∀ caller rest, (caller, .joining rest) ∈ u.pool.shutdowns →
      ∀ thread ∈ rest, ∃ i < k, thread = .worker i := by
    intro caller rest mem thread hthread
    have known := (joins_born hp whole).joining caller rest mem thread hthread
    rw [halted.born, born, List.mem_map] at known
    obtain ⟨i, less, rfl⟩ := known
    exact ⟨i, List.mem_range.1 less, rfl⟩
  exact {
    turnsAway := Play.turnsAway hp whole halted.closed
    accepted := ⟨halted.accepted, queue.trans halted.accepted⟩
    inFlight := halted.accepted ▸ inFlight
    began := began
    spawn := ⟨halted.born, fun fails => by simp [Play.step?, Pool.step?, Pool.spawn, halted.failed]⟩
    start := fun caller free => step?_of_moves (.startAgain free (by simp [halted.failed]))
    workers := fun i less => by
      obtain exited | ⟨step, q, next, possible, exited⟩ :=
        (untouched hp whole unborn).1.exits unheld (halted.alive i less)
      · exact .inl exited
      · exact .inr ⟨step, _, next, by rw [Play.step?, possible], exited⟩
    joins := joins
    settled := halted.settled hp whole joins }

/-- **A start that fails leaves a closed pool that does nothing.** -/
theorem failedStart {c : PoolConfig} {processors : Nat} (hp : create c processors = .ok p)
    (hs : Play.run? { pool := p } steps = some s) {caller : Thread}
    (starting : s.pool.lifecycle = .starting caller k) :
    ∃ t, s.step? (.spawn true) = some t ∧
      FailedStart (c.workers processors) c.threadName caller k s t := by
  have fresh := Fresh.of_create hp
  have count := workerCount_of_create hp
  have name : s.pool.name = c.threadName := (name_eq hs).trans (name_of_create hp)
  obtain ⟨started, threads⟩ := born_eq fresh hs
  rw [starting] at started
  obtain ⟨launched, le⟩ := started
  rw [launched, ownThreads_take p le] at threads
  have fails := (Moves.spawnFails starting).step?_eq
  let t : Play J := { s with pool := { s.pool with lifecycle := .failed, closed := true } }.record
    (s.pool.failStart caller k).2
  have ht : s.step? (.spawn true) = some t := by rw [Play.step?, fails]
  refine ⟨t, ht, ?_⟩
  exact {
    started := ⟨count ▸ le, threads⟩
    error := by
      have thread : (threadName s.pool.name (s.pool.threadAt k)).getD "" =
          if k < c.workers processors then c.threadName ++ "-worker-" ++ toString k
          else c.threadName ++ "-dispatch" := by
        rw [name, threadAt, workerCount_eq hs, count]
        split <;> rfl
      simp only [t, record, failStart, thread]
      rfl
    unstarted := by
      have unborn : s.pool.loop = .unborn :=
        (fresh.sound.of_run hs).unstarted (by simp [starting])
      exact (kept_of_unborn fresh hs unborn).1
    later := fun rest u h => inert fresh hs starting le threads ht h
    bounded := fun rest u h => by
      have tidy : t.pool.Tidy := tidy_next ⟨fresh.sound.of_run hs, shutdowns_callers fresh hs⟩ ht
      have := length_add_toil_le_price tidy h
      omega }

/-- A run of a pool of two workers with room for one job: job 10 is in the queue, a call waits with
job 20, and one worker is started. -/
def halfRun : List (Step Nat) :=
  [.enqueue (.client 0) 10, .insert (.client 0), .enqueue (.client 1) 20, .start (.client 2),
    .spawn false, .announce 0]

theorem failedStart_halfRun :
    ∃ s, Play.run? { pool := mixedPool } halfRun = some s ∧
      s.pool.lifecycle = .starting (.client 2) 1 ∧
        ∃ t, s.step? (.spawn true) = some t ∧ FailedStart 2 "a" (.client 2) 1 s t :=
  ⟨_, rfl, rfl, failedStart (c := { queueCapacity := 1, workerCount := some 2, threadName := "a" })
    (show create _ 1 = .ok mixedPool from rfl) (show Play.run? _ halfRun = some _ from rfl) rfl⟩

end Play

end Pool

end BatchPool
