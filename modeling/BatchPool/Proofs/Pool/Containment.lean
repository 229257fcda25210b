import BatchPool.Proofs.Pool.Casualties
import BatchPool.Proofs.Pool.Steered
import BatchPool.Proofs.Pool.TurnedAway

/-!
# What a fatal report leaves behind

The sink may kill the thread that reports to it, at any report. If it kills a worker, the pool goes on
without this worker. If it kills the loop, the pool is closed, and the workers end what they have.

* `Pool.CallsAtWork`: only a worker that executes a job is in a call.
* `Worker.wayOut`: the steps of a worker once the loop has ended. By these it finishes the job that it
  has, and ends: `Play.goesOut`.
* `Play.Casualty`: what holds of a worker that was killed.
* `Play.Severed`: what every step keeps when the loop was killed, and `Play.Adrift`: what holds of a
  play then, however it goes on.
* `Play.Contained`: all that follows.
-/

namespace BatchPool

namespace Pool

variable {J : Type}

/-- A worker that does not execute a job is in no call. -/
def CallsAtWork (p : Pool J) : Prop := ∀ i, p.executing? i = none → p.busy (.worker i) = false

/-- The steps that a worker has still to make when the loop has ended, if the job that it has ends
with the given outcome. -/
def Worker.wayOut (i : Nat) (outcome : Outcome) (w : Worker J) : List (Step J) :=
  match w.phase, w.slot with
  | .announcing, _ => [.announce i]
  | .listening, none => [.receive i]
  | .listening, some _ => [.receive i, .conclude i outcome false, .complete i, .announce i]
  | .executing _, _ => [.conclude i outcome false, .complete i, .announce i]
  | .settling _, _ => [.complete i, .announce i]
  | _, _ => []

variable {p q : Pool J} {step : Step J} {events : List (Event J)} {i : Nat} {t u x : Ticket J}
  {w : Worker J} {outcome : Outcome}

/-! ## Calls of workers -/

theorem executing?_eq_some :
    p.executing? i = some t ↔ ∃ w, p.workers[i]? = some w ∧ w.phase = .executing t := by
  unfold executing?
  constructor
  · intro h
    split at h
    · next here =>
      cases h
      exact ⟨_, here, rfl⟩
    · cases h
  · rintro ⟨⟨phase, ready, slot⟩, here, rfl⟩
    rw [here]

theorem Moves.mayCall_of_beginner {caller : Thread} (hm : Moves p step q events)
    (begins : step.beginner? = some caller) : p.mayCall caller = true := by
  cases hm <;> cases begins <;> assumption

/-- **Only a worker that executes a job is in a call.** -/
theorem CallsAtWork.next (h : p.CallsAtWork) (sound : p.Sound) (hm : Moves p step q events) :
    q.CallsAtWork := by
  intro i idle
  -- A worker that was idle before could not begin a call.
  have stays : p.executing? i = none → q.busy (.worker i) = false := by
    intro before
    refine hm.busy_next (h i before) fun begins => ?_
    obtain ⟨t, at_work⟩ := executing?_of_mayCall (hm.mayCall_of_beginner begins)
    rw [before] at at_work
    cases at_work
  obtain ⟨same, -⟩ | ⟨j, t, -, -, now, -⟩ | ⟨j, outcome, panics, rfl, now, -⟩ := sound.work_cases hm
  · exact stays (same ▸ idle)
  · rw [now] at idle
    by_cases mine : i = j
    · subst mine
      rw [Function.update_self] at idle
      cases idle
    · exact stays ((Function.update_of_ne mine ..).symm.trans idle)
  · by_cases mine : i = j
    · subst mine
      have returned : p.busy (.worker i) = false := by cases hm <;> assumption
      exact hm.busy_next returned nofun
    · rw [now] at idle
      exact stays ((Function.update_of_ne mine ..).symm.trans idle)

/-! ## Workers after the loop -/

/-- A worker has one job at most. -/
theorem Worker.Fits.eq_of_mem_tickets {handing : Bool} (h : w.Fits handing) (ht : t ∈ w.tickets)
    (hu : u ∈ w.tickets) : t = u := by
  obtain ⟨phase, ready, slot⟩ := w
  cases phase with
  | listening =>
    cases slot with
    | none => cases ht
    | some v => exact (List.mem_singleton.1 ht).trans (List.mem_singleton.1 hu).symm
  | stopped =>
    obtain rfl : slot = none := h.1
    cases ht
  | executing v | settling v =>
    obtain rfl : slot = none := h.2.1
    exact (List.mem_singleton.1 ht).trans (List.mem_singleton.1 hu).symm
  | unborn | announcing | dead =>
    obtain rfl : slot = none := h.2.1
    cases ht

/-! ## Pools without a loop -/

/-- A loop that has ended left a closed queue. -/
theorem Moves.closed_of_ended (hm : Moves p step q events)
    (closed : p.loop.ended = true → p.closed = true) : q.loop.ended = true → q.closed = true := by
  cases hm with
  | close | spawnFails | shutDown | drop | discardFatal => exact fun _ => rfl
  | stopLoop _ _ closed => exact fun _ => closed
  | spawnLoop | take | claim | claimGone | hand | handGone | discard | settle =>
    intro ended
    cases ended
  | _ => exact closed

/-- **When the loop was killed, nothing is assigned any more**, and nothing leaves the queue. -/
theorem Sound.dead_next (h : p.Sound) (hm : Moves p step q events) (dead : p.loop = .dead x)
    (closed : p.closed = true) :
    q.loop = .dead x ∧ q.queue = p.queue ∧ events.filterMap Event.handed? = [] ∧
      events.filterMap Event.skipped? = [] := by
  cases hm with
  | insert _ _ unclosed | offerTaken _ unclosed =>
    rw [unclosed] at closed
    cases closed
  | spawnLoop starting =>
    have loop := h.unstarted (by simp [starting])
    rw [dead] at loop
    cases loop
  | take loop | stopLoop loop | claim loop | claimGone loop | hand loop | handGone loop
  | discard loop | discardFatal loop | settle loop =>
    rw [dead] at loop
    cases loop
  | _ =>
    exact ⟨dead, rfl, by simp [List.filterMap_cons, Event.handed?, failStart],
      by simp [List.filterMap_cons, Event.skipped?, failStart]⟩

/-! ## Runs -/

namespace Play

variable {steps rest : List (Step J)} {s v : Play J}

theorem callsAtWork (hp : p.Fresh) (hs : Play.run? { pool := p } steps = some s) :
    s.pool.CallsAtWork := by
  refine run_induction (motive := fun _ s => s.pool.CallsAtWork) ?_
    (fun _ s _ _ _ hs ih hm => ih.next (hp.sound.of_run hs) hm) hs
  exact fun i _ => busy_eq_false_iff.2
    ⟨by simp [hp.waiting], by simp [hp.shutdowns], by simp [hp.lifecycle]⟩

theorem closed_of_ended (hp : p.Fresh) (hs : Play.run? { pool := p } steps = some s) :
    s.pool.loop.ended = true → s.pool.closed = true :=
  run_induction (motive := fun _ s => s.pool.loop.ended = true → s.pool.closed = true)
    (fun ended => by rw [hp.loop] at ended; cases ended)
    (fun _ _ _ _ _ _ ih hm => hm.closed_of_ended ih) hs

/-- What has happened stays so. -/
theorem mem_history_of_run {e : Event J} (he : e ∈ s.history) (h : s.run? rest = some v) :
    e ∈ v.history :=
  run_preserves (motive := fun v => e ∈ v.history) he
    (fun _ _ _ _ before _ => List.mem_append_right _ before) h

/-! ### The way out of a worker -/

/-- The worker can make the given steps, and has ended then. It has completed the given jobs. -/
def GoesOut (i : Nat) (way : List (Step J)) (tickets : List (Ticket J)) (s : Play J) : Prop :=
  ∃ v, s.run? way = some v ∧ v.pool.exited (.worker i) = true ∧
    ∀ t ∈ tickets, .completed (.worker i) t ∈ v.history

theorem GoesOut.cons {way : List (Step J)} {tickets : List (Ticket J)}
    (hm : Moves s.pool step q events)
    (h : ({ s with pool := q }.record events).GoesOut i way tickets) :
    s.GoesOut i (step :: way) tickets := by
  obtain ⟨v, hv, out⟩ := h
  exact ⟨v, (run?_of_moves hm way).trans hv, out⟩

theorem GoesOut.cons_completed {way : List (Step J)} {tickets : List (Ticket J)}
    (hm : Moves s.pool step q events) (completed : .completed (.worker i) t ∈ events)
    (h : ({ s with pool := q }.record events).GoesOut i way tickets) :
    s.GoesOut i (step :: way) (t :: tickets) := by
  obtain ⟨v, hv, exited, done⟩ := h
  refine ⟨v, (run?_of_moves hm way).trans hv, exited, List.forall_mem_cons.2 ⟨?_, done⟩⟩
  exact mem_history_of_run (by simp [record, completed]) hv

theorem goesOut_of_stopped (here : s.pool.workers[i]? = some w) (phase : w.phase = .stopped) :
    s.GoesOut i [] [] :=
  ⟨s, rfl, exited_worker_iff.2 ⟨w, here, by simp [Worker.gone, phase]⟩, by simp⟩

theorem goesOut_of_announcing (here : s.pool.workers[i]? = some w) (phase : w.phase = .announcing)
    (unheld : s.pool.handlesHeld = false) : s.GoesOut i [.announce i] [] :=
  .cons (.announceStops here phase unheld) (goesOut_of_stopped (getElem?_set_here here _) rfl)

theorem goesOut_of_settling (here : s.pool.workers[i]? = some w) (phase : w.phase = .settling t)
    (unheld : s.pool.handlesHeld = false) : s.GoesOut i [.complete i, .announce i] [t] :=
  .cons_completed (.complete here phase) (List.mem_singleton.2 rfl)
    (goesOut_of_announcing (getElem?_set_here here _) rfl unheld)

theorem goesOut_of_executing (outcome : Outcome) (here : s.pool.workers[i]? = some w)
    (phase : w.phase = .executing t) (returned : s.pool.busy (.worker i) = false)
    (unheld : s.pool.handlesHeld = false) :
    s.GoesOut i [.conclude i outcome false, .complete i, .announce i] [t] := by
  cases report : outcome.report? i with
  | none =>
    exact .cons (.conclude here phase returned report)
      (goesOut_of_settling (getElem?_set_here here _) rfl unheld)
  | some bad =>
    exact .cons (.concludeReported here phase returned report)
      (goesOut_of_settling (getElem?_set_here here _) rfl unheld)

/-- **When the loop has ended, a worker finishes the job that it has, and ends**, by its own steps. -/
theorem goesOut (outcome : Outcome) (here : s.pool.workers[i]? = some w)
    (born : w.phase ≠ .unborn) (present : w.gone = false)
    (returned : s.pool.busy (.worker i) = false) (unheld : s.pool.handlesHeld = false)
    (fits : w.Fits (s.pool.handingTo i)) : s.GoesOut i (w.wayOut i outcome) w.tickets := by
  obtain ⟨phase, ready, slot⟩ := w
  cases phase with
  | unborn => exact absurd rfl born
  | announcing =>
    obtain rfl : slot = none := fits.2.1
    exact goesOut_of_announcing here rfl unheld
  | listening =>
    cases slot with
    | none =>
      exact .cons (.receiveStops here rfl rfl unheld)
        (goesOut_of_stopped (getElem?_set_here here _) rfl)
    | some t =>
      exact .cons (.receive here rfl rfl)
        (goesOut_of_executing outcome (getElem?_set_here here _) rfl returned unheld)
  | executing t =>
    obtain rfl : slot = none := fits.2.1
    exact goesOut_of_executing outcome here rfl returned unheld
  | settling t =>
    obtain rfl : slot = none := fits.2.1
    exact goesOut_of_settling here rfl unheld
  | stopped | dead => cases present

/-! ### When the loop was killed -/

/-- What holds of the play `v` when the report of the discarded job `x` has killed the loop before the
play `s`, which has led to it. -/
structure Adrift (x : Ticket J) (s v : Play J) : Prop where
  loop : v.pool.loop = .dead x
  /-- The queue is closed. A call that is to enqueue a job is turned away. -/
  turnsAway : v.TurnsAway
  /-- No job enters the queue any more, and none leaves it. -/
  queue : v.accepted = s.accepted ∧ v.pool.queue = s.pool.queue
  /-- No job is handed to a worker any more, and none is discarded. -/
  assigned : v.handed = s.handed ∧ v.skipped = s.skipped
  /-- A job that has ended since was in the slot of its worker, or executed by it. -/
  ended : ∀ i t, (i, t) ∈ v.ended → (i, t) ∈ s.ended ∨ (i, t) ∈ s.pool.slots ++ s.pool.executing
  /-- Each worker has ended one job at most since. -/
  one : ∀ i t u, (i, t) ∈ v.ended → (i, u) ∈ v.ended → (i, t) ∉ s.ended → (i, u) ∉ s.ended → t = u
  /-- A worker that is left completes the job that it has, and ends, by its own steps. If it executes
  a job that is in the middle of a call, this has to return before. -/
  exits : ∀ i w, v.pool.workers[i]? = some w → w.gone = false →
    (∀ t, w.phase = .executing t → v.pool.busy (.worker i) = false) →
      ∀ outcome, v.GoesOut i (w.wayOut i outcome) w.tickets
  /-- If the pool does not go on by itself, and no work function shuts it down, all threads have ended
  and no call waits. -/
  settled : v.pool.Uninvolved → (∀ outcome, ¬v.pool.GoesOn outcome) →
    v.pool.Exited ∧ v.pool.waiting = []
  /-- In every run from here, the steps that the pool makes by itself are limited. -/
  bounded : ∀ rest z, v.run? rest = some z →
    rest.countP Step.inner ≤ v.pool.effort + 2 * rest.countP Step.enqueues
  /-- The job that was being discarded is not completed, and neither are those in the queue. -/
  uncounted : x ∉ v.completed ∧ ∀ t ∈ s.pool.queue, t ∉ v.completed
  /-- In flight are the calls that wait, the jobs in the queue, those that the workers have, one for
  each worker that was killed, and the one that was being discarded. -/
  inFlight : v.pool.inFlight = v.pool.waiting.length + s.pool.queue.length +
    (v.pool.slots ++ v.pool.executing ++ v.pool.settling).length + v.pool.dead.length + 1

/-- What every step keeps when the report of the discarded job `x` has killed the loop before the play
`s`. -/
structure Severed (x : Ticket J) (s v : Play J) : Prop where
  sound : v.pool.Sound
  loop : v.pool.loop = .dead x
  closed : v.pool.closed = true
  queue : v.pool.queue = s.pool.queue
  handed : v.handed = s.handed
  skipped : v.skipped = s.skipped

theorem Severed.next (h : s.Severed x v) (hm : Moves v.pool step q events) :
    s.Severed x ({ v with pool := q }.record events) := by
  obtain ⟨loop, queue, unhanded, unskipped⟩ := h.sound.dead_next hm h.loop h.closed
  exact {
    sound := h.sound.next hm
    loop := loop
    closed := hm.closed_next h.closed
    queue := queue.trans h.queue
    handed := by
      rw [← h.handed]
      exact (events_next v q events Event.handed?).trans (by rw [unhanded, List.append_nil]; rfl)
    skipped := by
      rw [← h.skipped, Play.skipped, events_next, unskipped, List.append_nil]
      rfl }

theorem severed (hp : p.Fresh) (hs : Play.run? { pool := p } steps = some s)
    (dead : s.pool.loop = .dead x) (h : s.run? rest = some v) : s.Severed x v := by
  have closed : s.pool.closed = true := closed_of_ended hp hs (by simp [dead, Loop.ended])
  exact run_preserves (motive := s.Severed x) ⟨hp.sound.of_run hs, dead, closed, rfl, rfl, rfl⟩
    (fun _ _ _ _ before hm => before.next hm) h

/-- A job that ended in a run in which nothing was handed over was with its worker before. -/
theorem ended_since (hp : p.Fresh) (hs : Play.run? { pool := p } steps = some s)
    (h : s.run? rest = some v) (handed : v.handed = s.handed) (ended : (i, t) ∈ v.ended) :
    (i, t) ∈ s.ended ∨ (i, t) ∈ s.pool.slots ++ s.pool.executing := by
  have whole := run?_trans hs h
  have before := began_subset hp whole (ended_subset hp whole ended)
  rw [handed, ← Multiset.mem_coe, ← slots_add hp hs, ← executing_add hp hs] at before
  simp only [Multiset.mem_add, Multiset.mem_coe] at before
  rw [List.mem_append]
  tauto

/-- A worker has at most one job in its slot and in execution. -/
theorem eq_of_mem_slots_append_executing (sound : s.pool.Sound)
    (ht : (i, t) ∈ s.pool.slots ++ s.pool.executing)
    (hu : (i, u) ∈ s.pool.slots ++ s.pool.executing) : t = u := by
  obtain ⟨w, here, first⟩ := mem_tickets (List.mem_append_left s.pool.settling ht)
  obtain ⟨w', same, second⟩ := mem_tickets (List.mem_append_left s.pool.settling hu)
  cases same.symm.trans here
  exact (sound.fits i w here).eq_of_mem_tickets first second

/-- What is in flight when the loop was killed: the job that was being discarded is one of it. -/
theorem inFlight_of_dead (hp : p.Fresh) (hs : Play.run? { pool := p } steps = some s)
    (dead : s.pool.loop = .dead x) :
    s.pool.inFlight = s.pool.waiting.length + s.pool.queue.length +
      (s.pool.slots ++ s.pool.executing ++ s.pool.settling).length + s.pool.dead.length + 1 := by
  have lost := congrArg Multiset.card (coe_lost hp hs)
  have counted := inFlight_eq hp hs
  simp only [Multiset.card_add, Multiset.coe_card, List.length_map, dead, Loop.fatal,
    List.length_singleton] at lost
  simp only [jobs, dead, Loop.undecided, Loop.leftover, List.append_nil, List.length_nil] at counted
  simp only [List.length_append]
  omega

/-- **A pool whose loop was killed is closed, and its workers end what they have.** -/
theorem adrift (hp : p.Fresh) (hs : Play.run? { pool := p } steps = some s)
    (dead : s.pool.loop = .dead x) (h : s.run? rest = some v) : s.Adrift x v := by
  have whole := run?_trans hs h
  have shut : s.pool.closed = true := closed_of_ended hp hs (by simp [dead, Loop.ended])
  obtain ⟨sound, loop, closed, queue, handed, skipped⟩ := severed hp hs dead h
  have running : v.pool.lifecycle = .running := sound.running (by simp [loop])
  have unheld : v.pool.handlesHeld = false := by simp [handlesHeld, running, loop, Loop.ended]
  exact {
    loop := loop
    turnsAway := Play.turnsAway hp whole closed
    queue := ⟨(shut_run shut h).2, queue⟩
    assigned := ⟨handed, skipped⟩
    ended := fun i t => ended_since hp hs h handed
    one := fun i t u ht hu newt newu =>
      eq_of_mem_slots_append_executing (hp.sound.of_run hs)
        ((ended_since hp hs h handed ht).resolve_left newt)
        ((ended_since hp hs h handed hu).resolve_left newu)
    exits := fun i w here present returned outcome => by
      have free : v.pool.busy (.worker i) = false := by
        cases at_work : v.pool.executing? i with
        | none => exact callsAtWork hp whole i at_work
        | some t =>
          obtain ⟨w', same, phase⟩ := executing?_eq_some.1 at_work
          cases same.symm.trans here
          exact returned t phase
      have born := (Play.started hp whole).workers i w here (.inl running)
      exact goesOut outcome here born present free unheld (sound.fits i w here)
    settled := fun uninvolved still => by
      have exited : v.pool.Exited := Classical.byContradiction fun left => still .done
        (sound.goesOn (Play.started hp whole) running closed uninvolved left)
      refine ⟨exited, List.eq_nil_iff_forall_not_mem.2 fun c hc => still .done ?_⟩
      exact goesOn_of_waiting closed (find?_of_mem Waiting.caller (waiting_callers hp whole) hc)
    bounded := fun rest z hz => by
      have := inner_le running closed hz
      omega
    uncounted := by
      refine ⟨not_completed_of_lost hp whole ?_, fun t ht => not_completed_of_queue hp whole ?_⟩
      · exact mem_events.2 ⟨_, (loop_dead_iff hp whole).1 loop, rfl⟩
      · rw [queue]
        exact ht
    inFlight := queue ▸ inFlight_of_dead hp whole loop }

/-! ### When a worker was killed -/

/-- What holds when worker `i` was killed by the report of its job `t`. -/
structure Casualty (i : Nat) (t : Ticket J) (s : Play J) : Prop where
  /-- The job has failed or panicked, and the worker died when it reported this. -/
  report : ∃ outcome report, outcome.Reports i report ∧
    [.ended i t outcome, .reported (.worker i) report, .lost (.worker i) t] <:+: s.history.reverse
  /-- The worker stays dead, and the job in flight, however the run goes on. -/
  kept : ∀ rest v, s.run? rest = some v → (i, t) ∈ v.pool.dead ∧ t ∉ v.completed
  /-- This is the only one: all others that it was handed are complete. -/
  others : ∀ u, (i, u) ∈ s.handed → u ≠ t → .completed (.worker i) u ∈ s.history
  /-- Of the jobs whose turn is its, it was handed those up to this one. -/
  handed : ∀ u, (i, u) ∈ s.assigned → ((i, u) ∈ s.handed ↔ u.number ≤ t.number)
  /-- Those behind it were discarded. -/
  skipped : ∀ u, (i, u) ∈ s.assigned → ((i, u) ∈ s.skipped ↔ t.number < u.number)

/-- **A worker that was killed leaves one job behind, and what is its turn later is discarded.** -/
theorem casualty (hp : p.Fresh) (hs : Play.run? { pool := p } steps = some s)
    (dead : (i, t) ∈ s.pool.dead) : s.Casualty i t := by
  have lost := (dead_iff hp hs).1 dead
  have upTo : ∀ u, (i, u) ∈ s.handed → u.number ≤ t.number := fun u hu =>
    handed_le_of_lost hp hs lost hu
  have behind : ∀ u, (i, u) ∈ s.skipped → t.number < u.number := by
    intro u hu
    obtain ⟨t', lost', less⟩ := lost_of_skipped hp hs hu
    obtain ⟨w, here, phase⟩ := mem_dead.1 dead
    obtain ⟨w', same, phase'⟩ := mem_dead.1 ((dead_iff hp hs).2 lost')
    cases same.symm.trans here
    cases phase'.symm.trans phase
    exact less
  exact {
    report := death_isInfix hs lost
    kept := fun rest v h => by
      have whole := run?_trans hs h
      have stays := mem_history_of_run lost h
      exact ⟨(dead_iff hp whole).2 stays,
        not_completed_of_lost hp whole (mem_events.2 ⟨_, stays, rfl⟩)⟩
    others := fun u hu other => (completed_of_dead hp hs dead hu other).2
    handed := fun u hu =>
      ⟨upTo u, fun le => (mem_assigned.1 hu).resolve_right fun skipped =>
        Nat.not_lt_of_le le (behind u skipped)⟩
    skipped := fun u hu =>
      ⟨behind u, fun less => (mem_assigned.1 hu).resolve_left fun handed =>
        Nat.not_lt_of_le (upTo u handed) less⟩ }

/-! ### All that follows -/

/-- What reports leave behind that have killed the thread that made them. The pool was made with `n`
workers. -/
structure Contained (n : Nat) (s : Play J) : Prop where
  /-- A worker dies only by the report of its own job, which has failed or panicked. -/
  death : ∀ step v i t, s.step? step = some v → (i, t) ∉ s.pool.dead → (i, t) ∈ v.pool.dead →
    ∃ outcome report, step = .conclude i outcome true ∧ s.pool.executing? i = some t ∧
      outcome.Reports i report ∧ v.history =
        .lost (.worker i) t :: .reported (.worker i) report :: .ended i t outcome :: s.history
  /-- It leaves one job in flight, and what is its turn from then on is discarded. -/
  casualty : ∀ i t, (i, t) ∈ s.pool.dead → s.Casualty i t
  /-- The jobs are numbered in the order in which they entered the queue, and assigned in this order,
  each to the worker whose turn it is by its number. -/
  assigned : s.accepted.map (·.number) = List.range s.accepted.length ∧
    s.assigned = (s.accepted.take s.assigned.length).map fun t => (t.number % n, t)
  /-- What is assigned to a worker that was not killed is handed to it. -/
  handed : ∀ i t, (i, t) ∈ s.assigned → (∀ u, (i, u) ∉ s.pool.dead) → (i, t) ∈ s.handed
  /-- The loop reports every job that it discards, and nothing else. -/
  reports : s.reports.filter (fun x => x.1 = .dispatch) =
    s.skipped.map fun x => (.dispatch, .discarded x.1)
  /-- It discards no job twice, and none that it has handed over. -/
  once : (s.handed.map (·.2) ++ s.skipped.map (·.2)).Nodup
  /-- A discarded job is complete, or its report has just returned, or has killed the loop. -/
  skipped : ∀ i t, (i, t) ∈ s.skipped → .completed .dispatch t ∈ s.history ∨
    s.pool.loop = .settling t ∨ s.pool.loop = .dead t
  /-- While the loop lives, it goes on, unless it waits for a job, or for a worker that executes one
  or goes on itself. -/
  alive : s.pool.lifecycle = .running → s.pool.loop.ended = false →
    (s.pool.loop = .receiving ∧ s.pool.queue = [] ∧ s.pool.closed = false) ∨
      (∃ step, s.pool.loopStep? false = some step ∧ (s.step? step).isSome = true) ∨
        s.pool.executing? s.pool.cursor ≠ none ∨
          ∃ step, s.pool.workerStep? s.pool.cursor = some step ∧ (s.step? step).isSome = true
  /-- A job that it holds for a worker that was killed it discards. If the report returns, the job is
  no longer in flight. -/
  discards : ∀ t u, s.pool.loop = .holding u → (s.pool.cursor, t) ∈ s.pool.dead →
    ∃ v, s.run? [.claim, .discard false, .settle] = some v ∧
      v.pool.loop = .receiving ∧ v.pool.inFlight + 1 = s.pool.inFlight ∧ v.history =
        .completed .dispatch u :: .reported .dispatch (.discarded s.pool.cursor) ::
          .discarded s.pool.cursor u :: s.history
  /-- So it is in every run: a job whose report has returned is completed next. -/
  settles : ∀ t, s.pool.loop = .settling t → ∃ v, s.step? .settle = some v ∧
    v.pool.inFlight + 1 = s.pool.inFlight ∧ v.history = .completed .dispatch t :: s.history
  /-- If the report does not return, the loop is dead and the queue is closed. -/
  falls : ∀ t, s.pool.loop = .discarding t → s.step? (.discard true) =
    some ({ s with pool := { s.pool with loop := .dead t, closed := true } }.record
      [.discarded s.pool.cursor t, .reported .dispatch (.discarded s.pool.cursor), .lost .dispatch t])
  /-- Nothing else kills it. -/
  fall : ∀ step v t, s.step? step = some v → s.pool.loop ≠ .dead t → v.pool.loop = .dead t →
    step = .discard true ∧ s.pool.loop = .discarding t
  /-- Then the pool does not take jobs any more, and ends what it has. -/
  adrift : ∀ t, s.pool.loop = .dead t → ∀ rest v, s.run? rest = some v → s.Adrift t v

/-- A worker is killed only by the report of its own job. -/
theorem death (hp : p.Fresh) (hs : Play.run? { pool := p } steps = some s)
    (hv : s.step? step = some v) (alive : (i, t) ∉ s.pool.dead) (dead : (i, t) ∈ v.pool.dead) :
    ∃ outcome report, step = .conclude i outcome true ∧ s.pool.executing? i = some t ∧
      outcome.Reports i report ∧ v.history =
        .lost (.worker i) t :: .reported (.worker i) report :: .ended i t outcome :: s.history := by
  obtain ⟨q, es, hm, rfl⟩ := moves_of_step? hv
  have law := (hp.sound.of_run hs).dead_law hm
  rw [pool_next, ← Multiset.mem_coe, law, Multiset.mem_add] at dead
  obtain ⟨e, he, killed⟩ := List.mem_filterMap.1 (Multiset.mem_coe.1 (dead.resolve_left alive))
  have lost : e = .lost (.worker i) t := by
    cases e with
    | lost thread => cases thread <;> cases killed; rfl
    | _ => cases killed
  obtain ⟨w, outcome, report, here, phase, bad, rfl, rfl⟩ := hm.of_killed (lost ▸ he)
  exact ⟨outcome, report, rfl, executing?_eq_some.2 ⟨w, here, phase⟩, bad, rfl⟩

/-- A loop that is not dead goes on, unless it waits for a job or for a worker. -/
theorem loop_goesOn (hp : p.Fresh) (hs : Play.run? { pool := p } steps = some s)
    (running : s.pool.lifecycle = .running) (alive : s.pool.loop.ended = false) :
    (s.pool.loop = .receiving ∧ s.pool.queue = [] ∧ s.pool.closed = false) ∨
      (∃ step, s.pool.loopStep? false = some step ∧ (s.step? step).isSome = true) ∨
        s.pool.executing? s.pool.cursor ≠ none ∨
          ∃ step, s.pool.workerStep? s.pool.cursor = some step ∧ (s.step? step).isSome = true := by
  have sound := hp.sound.of_run hs
  have started := Play.started hp hs
  by_cases idle : s.pool.loop = .receiving ∧ s.pool.queue = [] ∧ s.pool.closed = false
  · exact .inl idle
  · have busy : s.pool.loop = .receiving → s.pool.queue = [] → s.pool.closed = true :=
      fun loop queue => by simpa [loop, queue] using idle
    simp only [isSome_step?]
    obtain goes | ⟨w, turn, present, ready, handing⟩ := sound.loop_moves started running alive busy
    · exact .inr (.inl goes)
    · right
      right
      by_cases at_work : s.pool.executing? s.pool.cursor = none
      · exact .inr (sound.worker_moves started running turn present at_work fun _ => ⟨ready, handing⟩)
      · exact .inl at_work

/-- A discarded job whose report has returned is completed. -/
theorem settles (hp : p.Fresh) (hs : Play.run? { pool := p } steps = some s)
    (loop : s.pool.loop = .settling t) : ∃ v, s.step? .settle = some v ∧
      v.pool.inFlight + 1 = s.pool.inFlight ∧ v.history = .completed .dispatch t :: s.history := by
  have counted := inFlight_eq hp hs
  refine ⟨_, step?_of_moves (.settle loop), ?_, rfl⟩
  simp only [jobs, loop, Loop.undecided, Loop.leftover, List.nil_append, List.length_singleton]
    at counted
  show s.pool.inFlight - 1 + 1 = s.pool.inFlight
  omega

/-- A job that the loop holds for a worker that was killed is discarded. -/
theorem discards (hp : p.Fresh) (hs : Play.run? { pool := p } steps = some s)
    (loop : s.pool.loop = .holding u) (dead : (s.pool.cursor, t) ∈ s.pool.dead) :
    ∃ v, s.run? [.claim, .discard false, .settle] = some v ∧
      v.pool.loop = .receiving ∧ v.pool.inFlight + 1 = s.pool.inFlight ∧ v.history =
        .completed .dispatch u :: .reported .dispatch (.discarded s.pool.cursor) ::
          .discarded s.pool.cursor u :: s.history := by
  obtain ⟨w, turn, phase⟩ := mem_dead.1 dead
  have fits := (hp.sound.of_run hs).fits _ w turn
  rw [Worker.Fits, phase] at fits
  have gone : w.gone = true := by simp [Worker.gone, phase]
  have counted := inFlight_eq hp hs
  simp only [jobs, loop, Loop.undecided, Loop.leftover, List.append_nil, List.length_singleton]
    at counted
  let settled : Pool J :=
    { s.pool with
      inFlight := s.pool.inFlight - 1
      loop := .receiving
      cursor := (s.pool.cursor + 1) % s.pool.workerCount }
  refine ⟨{ s with pool := settled }.record [.discarded s.pool.cursor u,
    .reported .dispatch (.discarded s.pool.cursor), .completed .dispatch u], ?_, rfl, ?_, rfl⟩
  · rw [run?_of_moves (.claimGone loop turn fits.1 gone), run?_of_moves (.discard rfl),
      run?_of_moves (.settle rfl)]
    rfl
  · show s.pool.inFlight - 1 + 1 = s.pool.inFlight
    omega

/-- **Threads that are killed by a report are contained.** -/
theorem contained {c : PoolConfig} {processors : Nat} (hp : create c processors = .ok p)
    (hs : Play.run? { pool := p } steps = some s) : s.Contained (c.workers processors) := by
  have fresh := Fresh.of_create hp
  have count := workerCount_of_create hp
  exact {
    death := fun step v i t hv alive dead => death fresh hs hv alive dead
    casualty := fun i t dead => Play.casualty fresh hs dead
    assigned := ⟨accepted_numbered fresh hs, count ▸ assigned_eq fresh hs⟩
    handed := fun i t assigned alive => (mem_assigned.1 assigned).resolve_right fun skipped => by
      obtain ⟨u, lost, -⟩ := lost_of_skipped fresh hs skipped
      exact alive u ((dead_iff fresh hs).2 lost)
    reports := dispatch_reports hs
    once := handed_append_skipped_nodup fresh hs
    skipped := fun i t skipped => skipped_cases fresh hs skipped
    alive := loop_goesOn fresh hs
    discards := fun t u loop dead => discards fresh hs loop dead
    settles := fun t loop => settles fresh hs loop
    falls := fun t loop => step?_of_moves (.discardFatal loop)
    fall := fun step v t hv alive dead => by
      obtain ⟨q, es, hm, rfl⟩ := moves_of_step? hv
      cases hm with
      | discardFatal loop =>
        cases dead
        exact ⟨rfl, loop⟩
      | spawnLoop | take | stopLoop | claim | claimGone | hand | handGone | discard | settle =>
        cases dead
      | _ => exact absurd dead alive
    adrift := fun t dead rest v h => Play.adrift fresh hs dead h }

/-- A run of a pool of two workers with room for one job: worker 0 is killed by the report of job 10,
and job 30 is discarded in its turn. The report of the next one, job 50, kills the loop, while job 40
is in the slot of worker 1, job 60 is in the queue, and a call waits with job 70. -/
def cascadingRun : List (Step Nat) :=
  [.start (.client 0), .spawn false, .spawn false, .spawn false, .announce 0, .announce 1,
    .offer (.client 0) 10, .take, .claim, .hand, .receive 0, .conclude 0 (.panicked none) true,
    .offer (.client 0) 20, .take, .claim, .hand, .offer (.client 0) 30, .take, .receive 1, .claim,
    .discard false, .settle, .conclude 1 .done false, .complete 1, .offer (.client 0) 40, .take,
    .announce 1, .claim, .hand, .offer (.client 0) 50, .take, .offer (.client 0) 60,
    .enqueue (.client 1) 70, .claim, .discard true]

theorem contained_cascadingRun :
    ∃ s, Play.run? { pool := mixedPool } cascadingRun = some s ∧
      s.pool.loop = .dead { number := 4, job := 50 } ∧ s.Contained 2 :=
  ⟨_, rfl, rfl, contained (c := { queueCapacity := 1, workerCount := some 2, threadName := "a" })
    (show create _ 1 = .ok mixedPool from rfl) (show Play.run? _ cascadingRun = some _ from rfl)⟩

end Play

end Pool

end BatchPool
