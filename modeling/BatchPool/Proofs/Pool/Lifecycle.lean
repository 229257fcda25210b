import BatchPool.Proofs.Pool.Deserted
import BatchPool.Proofs.Pool.Sequence

/-!
# The life of a pool

A pool is started once at most, by whatever calls and in whatever order; its queue is closed once and
for all; and its threads stay until its jobs are done.

* `Event.settlesStart`: a call has started the threads, or failed to; `Moves.settled_next`: no other
  call does.
* `Play.born`: the threads that were started; `Moves.born_next`: they are started in their order.
* `Pool.Retiring`: a call that shuts the pool down goes on only when this will not be started.
* `Play.handed_of_exited`, `Play.ended_of_exited`: what is done when a thread ends.
* `Play.LivesOnce`: all that follows.
-/

namespace BatchPool

namespace Pool

variable {J : Type}

/-- A call has started the threads, or one of them failed to start. Only a call that finds the pool
started before ends otherwise. -/
def Event.settlesStart : Event J → Bool
  | .startEnded _ (.error .alreadyRunning) => false
  | .startEnded _ _ => true
  | _ => false

/-- The thread that was started. -/
def Event.born? : Event J → Option Thread
  | .logged thread (.workerStarted _) | .logged thread .loopStarted => some thread
  | _ => none

/-- A thread is started by the step. -/
def Step.launches : Step J → Bool
  | .spawn fails => !fails
  | _ => false

/-- The call that started the pool has returned. -/
def Lifecycle.settled : Lifecycle → Bool
  | .running | .failed => true
  | _ => false

/-- The threads that were started, in their order. -/
def Play.born (s : Play J) : List Thread := s.events Event.born?

/-- Where a pool of `n` workers stands when the given number of threads was started. -/
def Lifecycle.Born (n count : Nat) : Lifecycle → Prop
  | .stopped | .retired => count = 0
  | .starting _ next => count = next ∧ next ≤ n
  | .running => count = n + 1
  | .failed => count ≤ n

/-- A call that shuts the pool down goes on only when the pool will not be started any more. -/
def Retiring (p : Pool J) : Prop :=
  ∀ x ∈ p.shutdowns, x.2 ≠ .retiring → p.lifecycle ≠ .stopped

variable {p q : Pool J} {step : Step J} {events : List (Event J)}

/-! ## Steps -/

/-- A pool that was started, or will not be, stays so. -/
theorem Moves.unstopped_next (hm : Moves p step q events) (taken : p.lifecycle ≠ .stopped) :
    q.lifecycle ≠ .stopped := by
  cases hm with
  | startFirst | spawnFails | spawnWorker | spawnLoop => simp
  | retire | drop => simp [taken]
  | _ => exact taken

/-- The call that settles the start of a pool is the only one. -/
theorem Moves.settled_next (hm : Moves p step q events) :
    events.countP Event.settlesStart + p.lifecycle.settled.toNat = q.lifecycle.settled.toNat := by
  cases hm with
  | startFirst _ lifecycle => simp [lifecycle, Lifecycle.settled]
  | spawnFails lifecycle | spawnLoop lifecycle =>
    simp [lifecycle, Lifecycle.settled, Event.settlesStart, failStart]
  | spawnWorker lifecycle => simp [lifecycle, Lifecycle.settled, Event.settlesStart]
  | retire | drop =>
    by_cases stopped : p.lifecycle = Lifecycle.stopped <;> simp [stopped, Lifecycle.settled]
  | close | shutDown | join => split <;> simp [Event.settlesStart]
  | _ => simp [Event.settlesStart]

/-- The threads of a pool in the order in which they are started. -/
theorem ownThreads_take (p : Pool J) {n : Nat} (h : n ≤ p.workerCount) :
    p.ownThreads.take n = (List.range n).map .worker := by
  rw [ownThreads, List.take_append_of_le_length (by simpa using h), ← List.map_take,
    List.take_range, Nat.min_eq_left h]

theorem Lifecycle.Born.le {lifecycle : Lifecycle} {n count : Nat} (born : lifecycle.Born n count) :
    count ≤ n + 1 := by
  cases lifecycle <;> simp only [Lifecycle.Born] at born <;> omega

theorem Lifecycle.Born.retire {lifecycle : Lifecycle} {n count : Nat} (born : lifecycle.Born n count) :
    (if lifecycle = .stopped then .retired else lifecycle : Lifecycle).Born n count := by
  split
  · next stopped =>
    subst stopped
    exact born
  · exact born

/-- **Threads are started one after another, in their order.** -/
theorem Moves.born_next (hm : Moves p step q events) {count : Nat}
    (born : p.lifecycle.Born p.workerCount count) :
    q.lifecycle.Born p.workerCount (count + step.launches.toNat) ∧
      p.ownThreads.take count ++ events.filterMap Event.born? =
        p.ownThreads.take (count + step.launches.toNat) := by
  cases hm with
  | @spawnWorker caller n w starting here =>
    have less : n < p.workerCount := (List.getElem?_eq_some_iff.1 here).1
    rw [starting] at born
    obtain ⟨rfl, -⟩ : count = n ∧ n ≤ p.workerCount := born
    refine ⟨⟨rfl, less⟩, ?_⟩
    show _ = p.ownThreads.take (count + 1)
    rw [ownThreads_take p (Nat.le_of_lt less), ownThreads_take p less, List.range_succ,
      List.map_append]
    rfl
  | @spawnLoop caller n starting last =>
    have all : p.workerCount ≤ n := List.getElem?_eq_none_iff.1 last
    rw [starting] at born
    obtain ⟨rfl, le⟩ : count = n ∧ n ≤ p.workerCount := born
    obtain rfl : count = p.workerCount := Nat.le_antisymm le all
    refine ⟨rfl, ?_⟩
    show _ = p.ownThreads.take (p.workerCount + 1)
    rw [ownThreads_take p le, List.take_of_length_le (by simp [ownThreads])]
    rfl
  | @spawnFails caller n starting =>
    rw [starting] at born
    obtain ⟨rfl, le⟩ : count = n ∧ n ≤ p.workerCount := born
    exact ⟨le, by simp [Event.born?, failStart, Step.launches]⟩
  | startFirst _ stopped =>
    rw [stopped] at born
    obtain rfl : count = 0 := born
    exact ⟨⟨rfl, Nat.zero_le _⟩, by simp [Step.launches]⟩
  | retire | drop => exact ⟨born.retire, by simp [Step.launches]⟩
  | _ => exact ⟨born, by simp [List.filterMap_cons, Event.born?, Step.launches]⟩

theorem Retiring.next (h : p.Retiring) (hm : Moves p step q events) : q.Retiring := by
  intro x hx on
  cases hm with
  | shutDown =>
    obtain old | new := List.mem_append.1 hx
    · exact h x old on
    · rw [List.mem_singleton.1 new] at on
      exact absurd rfl on
  | retire =>
    by_cases stopped : p.lifecycle = Lifecycle.stopped <;> simp [stopped]
  | collect call | join call =>
    exact h _ (mem_of_shutdownOf? call) (by simp)
  | finish => exact h x (List.mem_of_mem_filter hx) on
  | drop _ _ _ none =>
    rw [none] at hx
    cases hx
  | startFirst | spawnFails | spawnWorker | spawnLoop => simp
  | _ => exact h x hx on

/-- A call that waits for room is told that the queue is closed only when it is. -/
theorem Moves.closed_of_rejected (hm : Moves p step q events) {caller : Thread} {job : J}
    (refused : ∀ c ∈ p.waiting, p.closed = false → c.refused = false)
    (rejected : .rejected caller job ∈ events) : p.closed = true := by
  cases hm with
  | offerClosed _ closed => exact closed
  | rollback call was =>
    cases unclosed : p.closed with
    | true => rfl
    | false =>
      rw [refused _ (List.mem_of_find?_eq_some call) unclosed] at was
      cases was
  | close | shutDown | join => split at rejected <;> simp at rejected
  | _ => simp [failStart] at rejected

/-! ## Runs -/

namespace Play

variable {steps : List (Step J)} {s : Play J}

/-- A pool was started by one call, if it was, and by no other. -/
theorem countP_settlesStart (hp : p.Fresh) (hs : Play.run? { pool := p } steps = some s) :
    s.history.countP Event.settlesStart = s.pool.lifecycle.settled.toNat := by
  refine run_induction
    (motive := fun _ s => s.history.countP Event.settlesStart = s.pool.lifecycle.settled.toNat)
    ?_ ?_ hs
  · simp [hp.lifecycle, Lifecycle.settled]
  · intro steps s step q es _ ih hm
    have next := hm.settled_next
    rw [← ih] at next
    simpa [record] using next

theorem born_eq (hp : p.Fresh) (hs : Play.run? { pool := p } steps = some s) :
    s.pool.lifecycle.Born p.workerCount (steps.countP Step.launches) ∧
      s.born = p.ownThreads.take (steps.countP Step.launches) := by
  refine run_induction
    (motive := fun steps s => s.pool.lifecycle.Born p.workerCount (steps.countP Step.launches) ∧
      s.born = p.ownThreads.take (steps.countP Step.launches)) ?_ ?_ hs
  · refine ⟨?_, rfl⟩
    show p.lifecycle.Born _ _
    rw [hp.lifecycle]
    rfl
  · intro steps s step q es hs ih hm
    have count : s.pool.workerCount = p.workerCount := workerCount_eq hs
    have own : s.pool.ownThreads = p.ownThreads := by rw [ownThreads, ownThreads, count]
    obtain ⟨born, threads⟩ := ih
    rw [← count] at born
    have next := hm.born_next born
    rw [own, ← threads] at next
    have last : (steps ++ [step]).countP Step.launches =
        steps.countP Step.launches + step.launches.toNat := by
      cases h : step.launches <;> simp [List.countP_append, h]
    rw [last, Play.born, events_next, ← count]
    exact next

/-- A call that shut the pool down left a pool that is not started any more. -/
theorem retiring (hp : p.Fresh) (hs : Play.run? { pool := p } steps = some s) :
    s.pool.Retiring ∧
      ((∃ caller, .shutdownEnded caller ∈ s.history) → s.pool.lifecycle ≠ .stopped) := by
  refine run_induction
    (motive := fun _ s => s.pool.Retiring ∧
      ((∃ caller, .shutdownEnded caller ∈ s.history) → s.pool.lifecycle ≠ .stopped)) ?_ ?_ hs
  · refine ⟨?_, by simp⟩
    simp [Retiring, hp.shutdowns]
  · rintro steps s step q es hs ⟨goes, ended⟩ hm
    refine ⟨goes.next hm, ?_⟩
    rintro ⟨caller, h⟩
    simp only [record, List.mem_append, List.mem_reverse] at h
    obtain now | before := h
    · cases hm with
      | finish call => exact goes _ (mem_of_shutdownOf? call) (by simp)
      | close | shutDown | join => split at now <;> simp at now
      | _ => simp [failStart] at now
    · exact hm.unstopped_next (ended ⟨caller, before⟩)

/-- A call that starts the threads of a pool that was started, or will not be, changes nothing. -/
theorem step?_start {caller : Thread} {t : Play J} (taken : s.pool.lifecycle ≠ .stopped)
    (ht : s.step? (.start caller) = some t) :
    t = s.record [.startEnded caller (.error .alreadyRunning)] := by
  obtain ⟨q, es, hm, rfl⟩ := moves_of_step? ht
  cases hm with
  | startFirst _ stopped => exact absurd stopped taken
  | startAgain => rfl

/-- The work function is started on a job only after the loop was started. -/
theorem dispatch_born (hp : p.Fresh) (hs : Play.run? { pool := p } steps = some s)
    (born : s.pool.loop ≠ .unborn) : .dispatch ∈ s.born := by
  have running := (hp.sound.of_run hs).running born
  obtain ⟨count, threads⟩ := born_eq hp hs
  rw [running] at count
  rw [threads, show steps.countP Step.launches = p.workerCount + 1 from count,
    List.take_of_length_le (by simp [ownThreads])]
  simp [ownThreads]

/-! ## The end of a thread -/

/-- A thread of a running pool ends only when the loop has stopped, if none of them was killed. -/
theorem stopped_of_exited (hp : p.Fresh) (hs : Play.run? { pool := p } steps = some s)
    (whole : s.pool.Whole) (running : s.pool.lifecycle = .running) {thread : Thread}
    (exited : s.pool.exited thread = true) : s.pool.loop = .stopped := by
  cases thread with
  | client => cases exited
  | dispatch => exact whole.stopped_of_ended exited
  | worker i =>
    obtain ⟨w, here, gone⟩ := exited_worker_iff.1 exited
    have unheld := (hp.sound.of_run hs).stopped i w here (whole.stopped_of_gone here gone)
    simp only [handlesHeld, running, Bool.not_eq_false'] at unheld
    exact whole.stopped_of_ended unheld

/-- By then all jobs that entered the queue were handed over. -/
theorem handed_of_exited (hp : p.Fresh) (hs : Play.run? { pool := p } steps = some s)
    (calm : ∀ step ∈ steps, step.panics = false) (running : s.pool.lifecycle = .running)
    {thread : Thread} (exited : s.pool.exited thread = true) :
    s.handed.map (·.2) = s.accepted := by
  have loop := stopped_of_exited hp hs (whole hp hs calm).1 running exited
  have none : s.pool.ahead = [] := by
    rw [ahead, (ended_of_stopped hp hs loop).2, loop]
    rfl
  rw [accepted_eq_handed hp hs calm, none, List.append_nil]

/-- **A worker ends only when all its jobs have ended**: those whose number makes it its turn. -/
theorem ended_of_exited (hp : p.Fresh) (hs : Play.run? { pool := p } steps = some s)
    (calm : ∀ step ∈ steps, step.panics = false) (running : s.pool.lifecycle = .running) {i : Nat}
    (exited : s.pool.exited (.worker i) = true) {t : Ticket J} (accepted : t ∈ s.accepted)
    (turn : t.number % p.workerCount = i) : (i, t) ∈ s.ended := by
  obtain ⟨w, here, gone⟩ := exited_worker_iff.1 exited
  have stopped := (whole hp hs calm).1.stopped_of_gone here gone
  have fits := (hp.sound.of_run hs).fits i w here
  simp only [Worker.Fits, stopped] at fits
  -- The job was handed over to the worker.
  have handed : (i, t) ∈ s.handed := by
    rw [← handed_of_exited hp hs calm running exited] at accepted
    obtain ⟨⟨j, u⟩, hx, rfl⟩ := List.mem_map.1 accepted
    have mine : j = u.number % p.workerCount := assigned_turn hp hs _ (handed_subset s hx)
    rw [← turn, ← mine]
    exact hx
  have nothing : (i, t) ∉ s.pool.slots ++ s.pool.executing ++ s.pool.settling := by
    intro held
    obtain ⟨v, hv, hx⟩ := mem_tickets held
    rw [here] at hv
    cases hv
    simp [Worker.tickets, fits.1, stopped] at hx
  simp only [List.mem_append, not_or] at nothing
  obtain ⟨⟨no_slot, not_executing⟩, -⟩ := nothing
  rw [← Multiset.mem_coe, ← slots_add hp hs, Multiset.mem_add] at handed
  have began := Multiset.mem_coe.1 (handed.resolve_left no_slot)
  rw [← Multiset.mem_coe, ← executing_add hp hs, Multiset.mem_add] at began
  exact Multiset.mem_coe.1 (began.resolve_left not_executing)

/-- A pool is started once at most, closed for ever, and not left by its threads before its jobs are
done. It was made with `n` workers, and the given steps have led to it. -/
structure LivesOnce (n : Nat) (steps : List (Step J)) (s : Play J) : Prop where
  /-- At most one call that was to start the threads did not find the pool already running. -/
  started : s.history.countP Event.settlesStart ≤ 1
  /-- None does once a call has returned that has shut the pool down: it changes nothing. -/
  late : (∃ caller, .shutdownEnded caller ∈ s.history) → ∀ caller t, s.step? (.start caller) = some t →
    t = s.record [.startEnded caller (.error .alreadyRunning)]
  /-- The threads that were started are the first ones of the workers and the loop, each once. -/
  threads : s.born <+: (List.range n).map .worker ++ [.dispatch]
  /-- There are as many as steps that have started one, and one more than workers at most. -/
  count : s.born.length = steps.countP Step.launches ∧ steps.countP Step.launches ≤ n + 1
  /-- The work function is started on a job only after the loop was started. -/
  began : ∀ step q es i t, s.pool.step? step = some (q, es) → .began i t ∈ es → .dispatch ∈ s.born
  /-- A job enters the queue only while this is open. -/
  entered : ∀ step q es caller t, s.pool.step? step = some (q, es) → .accepted caller t ∈ es →
    s.pool.closed = false
  /-- Once it is closed it stays so, and no job enters it any more. -/
  closed : s.pool.closed = true → ∀ rest t, s.run? rest = some t →
    t.pool.closed = true ∧ t.accepted = s.accepted
  /-- A call is told that the queue is closed only while it is. -/
  refused : ∀ step q es caller job, s.pool.step? step = some (q, es) → .rejected caller job ∈ es →
    s.pool.closed = true
  /-- A thread of a pool whose start succeeded ends only when all jobs that entered the queue, before
  the start or behind it, were handed over, if no report kills its thread. -/
  handed : (∀ step ∈ steps, step.panics = false) → (∃ caller, .startEnded caller (.ok ()) ∈ s.history) →
    ∀ thread, s.pool.exited thread = true → s.handed.map (·.2) = s.accepted
  /-- The worker whose turn it was by the number of a job does not end before the job has. -/
  kept : (∀ step ∈ steps, step.panics = false) → (∃ caller, .startEnded caller (.ok ()) ∈ s.history) →
    ∀ t ∈ s.accepted, s.pool.exited (.worker (t.number % n)) = true → (t.number % n, t) ∈ s.ended
  /-- So the threads do not end before all jobs have. -/
  done : (∀ step ∈ steps, step.panics = false) → (∃ caller, .startEnded caller (.ok ()) ∈ s.history) →
    s.pool.Exited → (s.ended.map (·.2)).Perm s.accepted

/-- **A pool is started once at most, closed for ever, and not left by its threads before its jobs
are done.** -/
theorem livesOnce {c : PoolConfig} {processors : Nat} (hp : create c processors = .ok p)
    (hs : Play.run? { pool := p } steps = some s) : s.LivesOnce (c.workers processors) steps := by
  have fresh := Fresh.of_create hp
  rw [← workerCount_of_create hp]
  obtain ⟨count, threads⟩ := born_eq fresh hs
  have few := count.le
  have length : p.ownThreads.length = p.workerCount + 1 := by simp [ownThreads]
  exact {
    started := by
      rw [countP_settlesStart fresh hs]
      exact Bool.toNat_le _
    late := fun gone caller t ht => step?_start ((retiring fresh hs).2 gone) ht
    threads := threads ▸ List.take_prefix _ _
    count := ⟨by rw [threads, List.length_take, length, Nat.min_eq_left few], few⟩
    began := fun step q es i t hstep began => by
      have slot := (Moves.of_step? hstep).slot_of_began began
      have assigned := handed_subset s (slots_subset fresh hs slot)
      refine dispatch_born fresh hs fun unborn => ?_
      rw [assigned_of_unborn hs unborn] at assigned
      cases assigned
    entered := fun step q es caller t hstep accepted => by
      cases closed : s.pool.closed with
      | false => rfl
      | true =>
        have none := (Moves.of_step? hstep).accepted_eq_nil closed
        exact absurd (List.filterMap_eq_nil_iff.1 none _ accepted) (by simp [Event.accepted?])
    closed := fun closed rest t h => shut_run closed h
    refused := fun step q es caller job hstep rejected =>
      (Moves.of_step? hstep).closed_of_rejected
        (fun c hc unclosed => waiting_unrefused fresh hs unclosed c hc) rejected
    handed := fun calm started thread exited =>
      handed_of_exited fresh hs calm (started.elim fun _ => running_of_started hs) exited
    kept := fun calm started t ht exited =>
      ended_of_exited fresh hs calm (started.elim fun _ => running_of_started hs) exited ht rfl
    done := fun calm _ exited =>
      (all_done fresh hs calm (jobs_eq_zero fresh hs (whole fresh hs calm).1 exited)).2.2 }

/-- A run of a pool of one worker: a job enters the queue, which is closed before two calls are to
start the threads. The first one starts them, and the job is done. The pool is shut down, and another
call is to start it. -/
def onceRun : List (Step Nat) :=
  [.offer (.client 0) 10, .close (.client 1), .start (.client 0), .spawn false, .start (.client 1),
    .spawn false, .enqueue (.client 1) 20, .refuse (.client 1), .announce 0, .take, .claim, .hand,
    .take, .receive 0, .rollback (.client 1), .shutDown (.client 0), .retire (.client 0),
    .collect (.client 0), .conclude 0 .done false, .complete 0, .announce 0, .join (.client 0),
    .join (.client 0), .finish (.client 0), .start (.client 1)]

theorem livesOnce_onceRun :
    ∃ s, Play.run? { pool := narrowPool } onceRun = some s ∧ s.LivesOnce 1 onceRun :=
  ⟨_, rfl, livesOnce (c := { queueCapacity := 1, workerCount := some 1, threadName := "a" })
    (show create _ 1 = .ok narrowPool from rfl) (show Play.run? _ onceRun = some _ from rfl)⟩

end Play

end Pool

end BatchPool
