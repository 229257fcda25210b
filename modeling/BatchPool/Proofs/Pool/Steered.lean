import BatchPool.Pool.Next
import BatchPool.Proofs.Pool.Led
import BatchPool.Proofs.Pool.Sequence

/-!
# Plays of a pool that a thread leads

* `Step.continues`: the steps by which a pool goes on with what has begun, and `callStep?_continues`
  and the like: the next step of a thread is one.
* `Moves.accepted_cases`, `Sound.work_cases`, `Moves.conclusion_cases`: the steps by which a job enters
  the queue, and those by which the work function is started on it and ends.
* `Play.Steered`: a play whose steps go by the rules of the leader, and `Steered.next`.
* `Pool.Finished`: a pool that was shut down, with nothing left to do. `Steered.finished`: so is a pool
  of which the leader has returned from its end.
* `Steered.of_still`: a play that runs and stands still has no job any more.
* `Play.Settled`: all jobs are done, but for jobs of one kind.
-/

namespace BatchPool

namespace Pool

open scoped List

variable {J : Type}

/-- A call begins by the step that starts the threads. -/
def Step.starts : Step J → Bool
  | .start _ => true
  | _ => false

/-- A call begins by the step that shuts the pool down. -/
def Step.shutsDown : Step J → Bool
  | .shutDown _ => true
  | _ => false

/-- A pool goes on by the step with what has begun, and nothing goes wrong. -/
def Step.continues : Step J → Bool
  | .enqueue _ _ | .offer _ _ | .close _ | .start _ | .shutDown _ | .idle _ | .drop => false
  | .spawn fails => !fails
  | .discard panics | .conclude _ _ panics => !panics
  | _ => true

/-- A worker starts or ends to work by the step. -/
def Step.works : Step J → Bool
  | .receive _ | .conclude _ _ _ => true
  | _ => false

/-- A job may enter the queue by the step. -/
def Step.inserts : Step J → Bool
  | .insert _ | .offer _ _ => true
  | _ => false

variable {leader caller : Thread} {p q : Pool J} {step : Step J} {events : List (Event J)} {i : Nat}

/-! ## The next step of a thread -/

theorem Step.orderly_of_continues (h : step.continues = true) : step.Orderly leader p := by
  cases step with
  | spawn | discard | conclude => simpa [continues, Orderly] using h
  | enqueue | offer | close | start | shutDown | idle | drop => cases h
  | _ => trivial

theorem callStep?_continues (h : p.callStep? caller = some step) :
    step.continues = true ∧ step.works = false := by
  unfold callStep? at h
  split at h
  · split at h
    · cases h; exact ⟨rfl, rfl⟩
    · split at h <;> cases h <;> exact ⟨rfl, rfl⟩
  · split at h
    any_goals cases h; exact ⟨rfl, rfl⟩
    split at h
    · split at h <;> cases h
      exact ⟨rfl, rfl⟩
    · cases h

theorem loopStep?_continues (h : p.loopStep? false = some step) :
    step.continues = true ∧ step.works = false ∧ step.inserts = false := by
  unfold loopStep? at h
  split at h <;> cases h <;> exact ⟨rfl, rfl, rfl⟩

theorem workerStep?_continues (h : p.workerStep? i = some step) :
    step.continues = true ∧ step.inserts = false ∧
      (step = .announce i ∨ step = .receive i ∨ step = .complete i) := by
  unfold workerStep? at h
  split at h <;> cases h <;> exact ⟨rfl, rfl, by simp⟩

/-- The call of a thread inserts its own job, and it is not refused unless it was before. -/
theorem callStep?_call (h : p.callStep? caller = some step) :
    (∀ other, step = .insert other → other = caller ∧ ∃ c ∈ p.waiting, c.caller = caller) ∧
      ∀ other, step = .rollback other → ∃ c ∈ p.waiting, c.refused = true := by
  unfold callStep? at h
  split at h
  · next c call =>
    have here := List.mem_of_find?_eq_some call
    split at h
    · next refused =>
      cases h
      exact ⟨by simp, fun _ _ => ⟨c, here, refused⟩⟩
    · split at h <;> cases h
      · exact ⟨by simp, by simp⟩
      · refine ⟨?_, by simp⟩
        rintro _ ⟨⟩
        exact ⟨rfl, c, here, by simpa using List.find?_some call⟩
  · split at h
    any_goals cases h; exact ⟨by simp, by simp⟩
    split at h
    · split at h <;> cases h
      exact ⟨by simp, by simp⟩
    · cases h

/-- Only the leader does anything with an open queue but to enqueue jobs. -/
theorem Led.callStep?_eq (h : p.Led leader) (other : caller ≠ leader) (unclosed : p.closed = false)
    (next : p.callStep? caller = some step) : step = .insert caller := by
  unfold callStep? at next
  split at next
  · next c call =>
    rw [h.unrefused c (List.mem_of_find?_eq_some call), unclosed] at next
    cases next
    rfl
  · split at next
    iterate 4
      next call => exact absurd (h.caller_eq call) other
    split at next
    · next starter n starting =>
      have : starter ≠ caller := h.starting _ _ starting ▸ Ne.symm other
      rw [if_neg this] at next
      cases next
    · cases next

/-- A thread without a next step is in no call. -/
theorem busy_eq_false (h : p.callStep? caller = none) : p.busy caller = false := by
  unfold callStep? at h
  split at h
  · split at h
    · cases h
    · split at h <;> cases h
  · next waiting =>
    split at h
    any_goals cases h
    next shutdown =>
      refine busy_eq_false_iff.2 ⟨fun c hc => ?_, fun x hx same => ?_, fun n starting => ?_⟩
      · simpa using List.find?_eq_none.1 waiting c hc
      · have other := List.lookup_eq_none_iff.1 shutdown x hx
        simp [same] at other
      · rw [starting] at h
        simp at h

/-- A thread that is in no call has no next step of one. -/
theorem callStep?_eq_none (free : p.busy caller = false) : p.callStep? caller = none := by
  obtain ⟨waiting, shutdown, starting⟩ := busy_eq_false_iff.1 free
  have uncalled : p.waitingOf? caller = none :=
    List.find?_eq_none.2 fun c hc => by simpa using waiting c hc
  have unjoined : p.shutdownOf? caller = none :=
    List.lookup_eq_none_iff.2 fun x hx => by simpa using Ne.symm (shutdown x hx)
  unfold callStep?
  rw [uncalled, unjoined]
  dsimp only
  split
  · next c n lifecycle =>
    have other : c ≠ caller := fun same => starting n (same ▸ lifecycle)
    rw [if_neg other]
  · rfl

/-! ## What a step is about -/

/-- A call waits after a step if it began by the step, or did so before and did not return by it. -/
theorem Moves.mem_waiting (hm : Moves p step q events) {c : Waiting J} (hc : c ∈ q.waiting) :
    (∃ d ∈ p.waiting, d.caller = c.caller ∧ d.job = c.job ∧ step ≠ .insert c.caller) ∨
      step = .enqueue c.caller c.job := by
  cases hm with
  | enqueue =>
    obtain old | new := List.mem_append.1 hc
    · exact .inl ⟨c, old, rfl, rfl, by simp⟩
    · rw [List.mem_singleton.1 new]
      exact .inr rfl
  | insert | rollback =>
    obtain ⟨old, other⟩ := List.mem_filter.1 hc
    have ne : c.caller ≠ _ := of_decide_eq_true other
    exact .inl ⟨c, old, rfl, rfl, by simp [Ne.symm ne]⟩
  | refuse =>
    obtain ⟨d, old, rfl⟩ := List.mem_map.1 hc
    refine .inl ⟨d, old, ?_, ?_, by simp⟩ <;> split <;> rfl
  | _ => exact .inl ⟨c, hc, rfl, rfl, by simp⟩

/-- A thread that is in no call and begins none is in no call after a step either. -/
theorem Moves.busy_next (hm : Moves p step q events) (free : p.busy caller = false)
    (other : step.beginner? ≠ some caller) : q.busy caller = false := by
  obtain ⟨waiting, shutdowns, starting⟩ := busy_eq_false_iff.1 free
  have calls : ∀ c ∈ q.waiting, c.caller ≠ caller := by
    intro c hc
    obtain ⟨d, hd, same, -⟩ | rfl := hm.mem_waiting hc
    · exact same ▸ waiting d hd
    · exact fun mine => other (congrArg some mine)
  refine busy_eq_false_iff.2 ⟨calls, ?_, ?_⟩
  · cases hm with
    | shutDown =>
      intro x hx
      obtain old | new := List.mem_append.1 hx
      · exact shutdowns x old
      · rw [List.mem_singleton.1 new]
        exact fun mine => other (congrArg some mine)
    | retire call | collect call | join call =>
      intro x hx
      obtain ⟨y, hy, rfl⟩ := List.mem_map.1 hx
      have owner := shutdowns _ (mem_of_shutdownOf? call)
      split
      · exact owner
      · exact shutdowns y hy
    | finish => exact fun x hx => shutdowns x (List.mem_filter.1 hx).1
    | _ => exact shutdowns
  · cases hm with
    | startFirst =>
      rintro n ⟨⟩
      exact other rfl
    | spawnWorker before =>
      rintro n ⟨⟩
      exact starting _ before
    | spawnLoop | spawnFails => exact fun n => by simp
    | retire | drop =>
      intro n after
      split at after
      · cases after
      · exact starting n after
    | _ => exact starting

/-- A job enters the queue by a call that waited for room, or by an offer. -/
theorem Moves.accepted_cases (hm : Moves p step q events) :
    events.filterMap Event.accepted? = [] ∨
      (∃ caller, step = .insert caller ∧ ∃ c, p.waitingOf? caller = some c ∧
        events.filterMap Event.accepted? = [{ number := p.inserted, job := c.job }]) ∨
          ∃ caller job, step = .offer caller job := by
  cases hm with
  | insert call => exact .inr (.inl ⟨_, rfl, _, call, rfl⟩)
  | offerTaken => exact .inr (.inr ⟨_, _, rfl⟩)
  | _ => exact .inl (by simp [List.filterMap_cons, Event.accepted?, failStart])

/-- The work function ends where it is at work. -/
theorem Moves.conclusion_cases (hm : Moves p step q events) :
    events.filterMap Event.conclusion? = [] ∨
      ∃ i t outcome panics, step = .conclude i outcome panics ∧ p.executing? i = some t ∧
        events.filterMap Event.conclusion? = [(t, outcome)] := by
  cases hm with
  | @conclude i w t _ _ here executing | @concludeReported i w t _ _ here executing
  | @concludeFatal i w t _ _ here executing =>
    obtain ⟨phase, ready, slot⟩ := w
    cases executing
    exact .inr ⟨i, t, _, _, rfl, by simp [executing?, here], rfl⟩
  | _ => exact .inl (by simp [List.filterMap_cons, Event.conclusion?, failStart])

/-- What a worker is at work on after one of them changed. -/
theorem executing?_set {w' : Worker J} {job : Option (Ticket J)} (less : i < p.workerCount)
    (workers : q.workers = p.workers.set i w') (now : w'.running.head? = job) :
    q.executing? = Function.update p.executing? i job := by
  subst now
  funext j
  by_cases same : j = i
  · subst same
    rw [Function.update_self, executing?, workers, List.getElem?_set_self less]
    obtain ⟨phase, ready, slot⟩ := w'
    cases phase <;> rfl
  · rw [Function.update_of_ne same, executing?, workers, List.getElem?_set_ne (Ne.symm same)]
    rfl

theorem executing?_eq {w : Worker J} (here : p.workers[i]? = some w) :
    p.executing? i = w.running.head? := by
  rw [executing?, here]
  obtain ⟨phase, ready, slot⟩ := w
  cases phase <;> rfl

/-- A step changes nothing about who is at work, or a worker takes a job, or one ends. -/
theorem Sound.work_cases (h : p.Sound) (hm : Moves p step q events) :
    (q.executing? = p.executing? ∧ events.filterMap Event.began? = [] ∧
        ∀ i outcome panics, step ≠ .conclude i outcome panics) ∨
      (∃ i t, step = .receive i ∧ p.executing? i = none ∧
        q.executing? = Function.update p.executing? i (some t) ∧
          events.filterMap Event.began? = [(i, t)]) ∨
      ∃ i outcome panics, step = .conclude i outcome panics ∧
        q.executing? = Function.update p.executing? i none ∧
          events.filterMap Event.began? = [] := by
  have quiet : ∀ {w w' : Worker J} {i}, p.workers[i]? = some w →
      q.workers = p.workers.set i w' → w'.running = w.running → q.executing? = p.executing? := by
    intro w w' i here workers same
    rw [executing?_set (List.getElem?_eq_some_iff.1 here).1 workers rfl, same, ← executing?_eq here,
      Function.update_eq_self]
  cases hm with
  | @spawnWorker caller n w starting here =>
    have new := h.newborn n (by rw [starting]; rfl) n w (Nat.le_refl n) here
    exact .inl ⟨quiet here rfl (by rw [new]; rfl), rfl, by simp⟩
  | claim _ turn | hand _ turn => exact .inl ⟨quiet turn rfl rfl, rfl, by simp⟩
  | announce here phase | announceStops here phase | receiveStops here phase
  | complete here phase =>
    exact .inl ⟨quiet here rfl (by simp [Worker.running, phase]), rfl, by simp⟩
  | @receive i w t here phase =>
    have less := (List.getElem?_eq_some_iff.1 here).1
    have idle : p.executing? i = none := by
      rw [executing?_eq here]
      simp [Worker.running, phase]
    exact .inr (.inl ⟨i, t, rfl, idle, executing?_set less rfl rfl, rfl⟩)
  | conclude here | concludeReported here | concludeFatal here =>
    have less := (List.getElem?_eq_some_iff.1 here).1
    exact .inr (.inr ⟨_, _, _, rfl, executing?_set less rfl rfl, rfl⟩)
  | _ => exact .inl ⟨rfl, by simp [List.filterMap_cons, Event.began?, failStart], by simp⟩

theorem mem_executing {t : Ticket J} : (i, t) ∈ p.executing ↔ p.executing? i = some t := by
  simp only [executing, mem_atWorkers, executing?]
  constructor
  · rintro ⟨j, w, here, hx⟩
    obtain ⟨phase, ready, slot⟩ := w
    cases phase with
    | executing u =>
      obtain ⟨rfl, rfl⟩ := Prod.mk.inj (List.mem_singleton.1 hx)
      rw [here]
    | _ => cases hx
  · intro h
    split at h
    · next here =>
      cases h
      exact ⟨i, _, here, List.mem_singleton.2 rfl⟩
    · cases h

/-- Nobody is at work in a pool whose threads have ended. -/
theorem Exited.executing?_eq (h : p.Exited) (i : Nat) : p.executing? i = none := by
  unfold executing?
  split
  · next here =>
    have gone := (exited_iff.1 h).2 i _ here
    cases gone
  · rfl

/-- No thread of such a pool has a next step. -/
theorem Exited.loopStep?_eq (h : p.Exited) (panics : Bool) : p.loopStep? panics = none := by
  have ended := (exited_iff.1 h).1
  cases loop : p.loop <;> simp_all [loopStep?, Loop.ended]

theorem Exited.workerStep?_eq (h : p.Exited) (i : Nat) : p.workerStep? i = none := by
  have gone : ∀ w, p.workers[i]? = some w → w.gone = true := (exited_iff.1 h).2 i
  unfold workerStep?
  split
  · next here => cases gone _ here
  · next here => cases gone _ here
  · next here => cases gone _ here
  · rfl

/-- A pool that was shut down, with nothing left to do: its queue is closed and empty, its threads have
ended and were joined, and no call goes on. -/
structure Finished (p : Pool J) : Prop where
  closed : p.closed = true
  exited : p.Exited
  threads : p.threads = []
  shutdowns : p.shutdowns = []
  waiting : p.waiting = []
  queue : p.queue = []
  inFlight : p.inFlight = 0

/-! ## Plays -/

namespace Play

/-- A play of a pool that a thread leads. So far it was started and closed, or was not. -/
structure Steered (p : Pool J) (leader : Thread) (started closed : Bool) (s : Play J) : Prop where
  run : ∃ steps, Play.run? { pool := p } steps = some s ∧ ∀ step ∈ steps, step.panics = false
  led : s.pool.Led leader
  stopped : started = false → s.pool.lifecycle = .stopped
  launched : started = true → s.pool.Launched
  closed_eq : s.pool.closed = closed
  /-- A pool is started before it is shut down. -/
  order : closed = true → started = true
  unrefused : s.refused = []

/-- Every job that waits is of one kind, and so is every job in the queue that is not done. -/
structure Settled (kind : J → Prop) (s : Play J) : Prop where
  waiting : ∀ c ∈ s.pool.waiting, kind c.job
  accepted : ∀ t ∈ s.accepted, kind t.job ∨ t ∈ s.ended.map (·.2)

variable {started closed : Bool} {s t : Play J} {kind : J → Prop}

/-- Only by an insertion a job enters the queue. -/
theorem accepted_eq_of_inserts (moved : s.step? step = some t) (none : step.inserts = false) :
    t.accepted = s.accepted := by
  obtain ⟨q, es, hm, rfl⟩ := moves_of_step? moved
  obtain empty | ⟨caller, rfl, -⟩ | ⟨caller, job, rfl⟩ := hm.accepted_cases
  · rw [accepted_eq_events, events_next, empty, List.append_nil]
    rfl
  · cases none
  · cases none

/-- Only by the end of its work function a job is done. -/
theorem conclusions_eq_of_works (moved : s.step? step = some t)
    (other : ∀ i outcome panics, step ≠ .conclude i outcome panics) :
    t.conclusions = s.conclusions := by
  obtain ⟨q, es, hm, rfl⟩ := moves_of_step? moved
  obtain empty | ⟨i, u, outcome, panics, rfl, -⟩ := hm.conclusion_cases
  · rw [conclusions, events_next, empty, List.append_nil]
    rfl
  · exact absurd rfl (other _ _ _)

theorem Steered.create (hp : p.Fresh) (leader : Thread) :
    Steered p leader false false { pool := p } where
  run := ⟨[], rfl, by simp⟩
  led := hp.led leader
  stopped := fun _ => hp.lifecycle
  launched := fun started => by cases started
  closed_eq := hp.closed
  order := fun closed => by cases closed
  unrefused := rfl

/-- **A step by the rules keeps a play steered.** -/
theorem Steered.next (h : Steered p leader started closed s) (moved : s.step? step = some t)
    (orderly : step.Orderly leader s.pool) (starts : step.starts = true → started = false)
    (shuts : step.shutsDown = true → started = true) :
    Steered p leader (started || step.starts) (closed || step.shutsDown) t := by
  obtain ⟨q, es, hm, rfl⟩ := moves_of_step? moved
  obtain ⟨steps, hs, calm⟩ := h.run
  refine ⟨⟨steps ++ [step], ?_, ?_⟩, h.led.next hm orderly, ?_, ?_, ?_, ?_, ?_⟩
  · simp [run?_append, hs, run?, moved]
  · simpa [or_imp, forall_and] using ⟨calm, orderly.calm⟩
  · intro before
    obtain ⟨unstarted, other⟩ := Bool.or_eq_false_iff.1 before
    have unclosed : s.pool.closed = false := by
      rw [h.closed_eq, Bool.eq_false_iff]
      intro shut
      rw [h.order shut] at unstarted
      cases unstarted
    refine h.led.stopped_next hm (h.stopped unstarted) unclosed (fun caller same => ?_) orderly
    rw [same] at other
    cases other
  · intro after
    obtain before | now := Bool.or_eq_true_iff.1 after
    · exact (h.launched before).next hm orderly
    · have stopped := h.stopped (starts now)
      cases hm with
      | startFirst => exact .inr ⟨_, _, rfl⟩
      | startAgain _ taken => exact absurd stopped taken
      | _ => cases now
  · cases now : step.shutsDown with
    | false =>
      rw [Bool.or_false, ← h.closed_eq]
      exact orderly.closed_eq hm fun caller same => by rw [same] at now; cases now
    | true =>
      rw [Bool.or_true]
      cases hm with
      | shutDown => rfl
      | _ => cases now
  · intro after
    obtain before | now := Bool.or_eq_true_iff.1 after
    · simp [h.order before]
    · simp [shuts now]
  · rw [refused, events_next, (h.led.waiting_next hm orderly).2.2, List.append_nil]
    exact h.unrefused

/-- A step that goes on with what has begun. -/
theorem Steered.continue (h : Steered p leader started closed s) (moved : s.step? step = some t)
    (continues : step.continues = true) : Steered p leader started closed t := by
  have starts : step.starts = false := by cases step <;> first | rfl | cases continues
  have shuts : step.shutsDown = false := by cases step <;> first | rfl | cases continues
  simpa [starts, shuts] using h.next moved (Step.orderly_of_continues continues)
    (by simp [starts]) (by simp [shuts])

/-- **When the leader has shut a steered pool down, its threads have ended.** -/
theorem Steered.exited (h : Steered p leader true true s) (hp : p.Fresh)
    (returned : s.pool.busy leader = false) : s.pool.Exited :=
  have ⟨_, hs, _⟩ := h.run
  h.led.exited hp hs (h.launched rfl) h.closed_eq returned

/-- **Then the pool is finished.** -/
theorem Steered.finished (h : Steered p leader true true s) (hp : p.Fresh)
    (returned : s.pool.busy leader = false) : s.pool.Finished := by
  obtain ⟨steps, hs, calm⟩ := h.run
  have exited := h.exited hp returned
  have none := jobs_eq_zero hp hs (whole hp hs calm).1 exited
  have waiting := h.led.welcome h.closed_eq
  obtain ⟨shutdowns, threads⟩ := h.led.unjoined h.closed_eq returned
  exact {
    closed := h.closed_eq
    exited := exited
    threads := threads
    shutdowns := shutdowns
    waiting := waiting
    queue := (all_done hp hs calm none).1
    inFlight := by
      rw [inFlight_eq hp hs, waiting, none, lost_eq_nil calm hs]
      rfl }

/-- Threads that have ended stay so. -/
theorem Steered.exited_next (h : Steered p leader started closed s) (hp : p.Fresh)
    (moved : s.step? step = some t) (exited : s.pool.Exited) : t.pool.Exited := by
  obtain ⟨q, es, hm, rfl⟩ := moves_of_step? moved
  obtain ⟨steps, hs, -⟩ := h.run
  have same : q.ownThreads = s.pool.ownThreads := by
    rw [ownThreads, ownThreads, hm.workerCount_eq]
  intro thread mine
  exact (hp.sound.of_run hs).exited_next hm (exited thread (same ▸ mine))

/-! ## Plays that stand still -/

/-- A steered pool that runs and stands still is done with all its jobs. If it was closed, its threads
have ended. -/
theorem Steered.of_still (h : Steered p leader started closed s) (hp : p.Fresh)
    (running : s.pool.lifecycle = .running) (still : s.pool.Still) :
    s.pool.jobs = 0 ∧ (closed = true → s.pool.Exited) := by
  obtain ⟨steps, hs, calm⟩ := h.run
  obtain exited | ⟨unclosed, none⟩ :=
    still.exited_or (hp.sound.of_run hs) (Play.started hp hs) running
  · exact ⟨jobs_eq_zero hp hs (whole hp hs calm).1 exited, fun _ => exited⟩
  · refine ⟨none, fun shut => ?_⟩
    rw [h.closed_eq, shut] at unclosed
    cases unclosed

/-- Then there is room in its queue. -/
theorem Steered.room_of_still (h : Steered p leader started closed s) (hp : p.Fresh)
    (capacity : 0 < p.capacity) (running : s.pool.lifecycle = .running) (still : s.pool.Still) :
    s.pool.isFull = false := by
  obtain ⟨steps, hs, -⟩ := h.run
  have none := (h.of_still hp running still).1
  simp only [jobs, Nat.add_eq_zero_iff] at none
  have less : s.pool.queue.length < s.pool.capacity := by
    rw [none.1.1.1.1, capacity_eq hs]
    exact capacity
  simpa [isFull] using less

/-- And only the calls that wait are in flight. -/
theorem Steered.inFlight_of_still (h : Steered p leader started closed s) (hp : p.Fresh)
    (running : s.pool.lifecycle = .running) (still : s.pool.Still) :
    s.pool.inFlight = s.pool.waiting.length := by
  obtain ⟨steps, hs, calm⟩ := h.run
  rw [inFlight_eq hp hs, (h.of_still hp running still).1, lost_eq_nil calm hs]
  rfl

/-- The threads that the leader joins have ended, where a pool stands still. -/
theorem Steered.joins_of_still (h : Steered p leader started closed s) (hp : p.Fresh)
    (running : s.pool.lifecycle = .running) (still : s.pool.Still) {thread : Thread}
    {rest : List Thread} (joins : (caller, .joining (thread :: rest)) ∈ s.pool.shutdowns) :
    s.pool.exited thread = true := by
  obtain ⟨steps, hs, -⟩ := h.run
  have shut := h.led.closed_of_mem joins
  exact (h.of_still hp running still).2 (h.closed_eq.symm.trans shut) thread
    ((owned hp hs).joining _ _ joins thread List.mem_cons_self)

/-! ## Settled plays -/

theorem Settled.next (h : s.Settled kind) (moved : s.step? step = some t)
    (new : ∀ job, step.job? = some job → kind job) : t.Settled kind := by
  obtain ⟨q, es, hm, rfl⟩ := moves_of_step? moved
  constructor
  · intro c hc
    obtain ⟨d, hd, -, same, -⟩ | rfl := hm.mem_waiting hc
    · exact same ▸ h.waiting d hd
    · exact new _ rfl
  · intro t ht
    rw [accepted_eq_events, events_next] at ht
    have kept : kind t.job ∨ t ∈ s.ended.map (·.2) := by
      obtain before | now := List.mem_append.1 ht
      · exact h.accepted t before
      · obtain none | ⟨caller, rfl, c, call, one⟩ | ⟨caller, job, rfl⟩ := hm.accepted_cases
        · rw [none] at now
          cases now
        · rw [one, List.mem_singleton] at now
          rw [now]
          exact .inl (h.waiting c (List.mem_of_find?_eq_some call))
        · cases hm with
          | offerClosed | offerFull => cases now
          | offerTaken =>
            rw [List.mem_singleton.1 now]
            exact .inl (new job rfl)
    refine kept.imp_right fun done => ?_
    have all : ({ s with pool := q }.record es).ended =
        s.ended ++ es.filterMap Event.ended? := events_next ..
    rw [all, List.map_append]
    exact List.mem_append_left _ done

/-- When nothing is in flight, all jobs are done. -/
theorem Settled.of_idle {steps : List (Step J)} (hp : p.Fresh)
    (hs : Play.run? { pool := p } steps = some s) (calm : ∀ step ∈ steps, step.panics = false)
    (none : s.pool.inFlight = 0) : s.Settled kind := by
  rw [inFlight_eq hp hs] at none
  have waiting : s.pool.waiting = [] := List.eq_nil_of_length_eq_zero (by omega)
  have done := (all_done hp hs calm (by omega)).2.2
  exact ⟨by simp [waiting], fun t ht => .inr (done.mem_iff.2 ht)⟩

/-- The work function is at work on no job that is done. -/
theorem Settled.executing {steps : List (Step J)} {t : Ticket J} (h : s.Settled kind) (hp : p.Fresh)
    (hs : Play.run? { pool := p } steps = some s) (at_work : (i, t) ∈ s.pool.executing) :
    kind t.job := by
  have stages := Multiset.coe_eq_coe.1
    ((Multiset.coe_add _ _).symm.trans (executing_add hp hs))
  have began := began_le hp hs
  have once := Multiset.nodup_of_le began (Multiset.coe_nodup.2 (accepted_nodup hp hs))
  have nodup : ((s.pool.executing ++ s.ended).map (·.2)).Nodup :=
    (stages.map (·.2)).nodup_iff.2 (Multiset.coe_nodup.1 once)
  have here : t ∈ s.began.map (·.2) :=
    (stages.map (·.2)).mem_iff.1 (List.mem_map_of_mem (List.mem_append_left _ at_work))
  obtain good | done := h.accepted t (Multiset.mem_of_le began here)
  · exact good
  · rw [List.map_append, List.nodup_append] at nodup
    exact absurd rfl (nodup.2.2 t (List.mem_map_of_mem at_work) t done)

end Play

end Pool

end BatchPool
