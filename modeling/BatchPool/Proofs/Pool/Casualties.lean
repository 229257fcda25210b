import BatchPool.Proofs.Pool.RoundRobin
import BatchPool.Proofs.Pool.Whole

/-!
# Threads that are killed by a report

The report of a job may kill the thread that makes it. A worker dies by the report of its own job, which
stays in flight. What is its turn from then on the loop discards; it reports this, and may die by that
report.

* `Pool.dead`, `Loop.fatal`: the jobs by whose reports the threads were killed. `Play.coe_lost`: no
  other job is lost, and `Play.not_completed_of_lost`: none of them is ever completed.
* `Moves.of_killed`: how a worker is killed; `Play.death_isInfix`: what happened then, in a run.
* `Play.handed_le_of_lost`, `Play.lost_of_skipped`: the jobs of a worker that was killed, up to the
  one by whose report it died, were handed to it, and those behind it were discarded.
* `Play.dispatch_reports`: the loop reports every job that it discards, and nothing else.
-/

namespace BatchPool

namespace Pool

variable {J : Type}

/-- The job that was lost with a worker. -/
def Event.killed? : Event J → Option (Nat × Ticket J)
  | .lost (.worker i) t => some (i, t)
  | _ => none

/-- The discarded job that was lost with the loop. -/
def Event.felled? : Event J → Option (Ticket J)
  | .lost .dispatch t => some t
  | _ => none

/-- The job that stopped being in flight. -/
def Event.completed? : Event J → Option (Ticket J)
  | .completed _ t => some t
  | _ => none

/-- The job that was discarded, with the worker whose turn it was. -/
def Event.skipped? : Event J → Option (Nat × Ticket J)
  | .discarded i t => some (i, t)
  | _ => none

/-- The jobs by whose reports workers were killed. -/
def dead (p : Pool J) : List (Nat × Ticket J) :=
  p.atWorkers fun i w =>
    match w.phase with
    | .dead t => [(i, t)]
    | _ => []

/-- The job by whose report the loop was killed. -/
def Loop.fatal : Loop J → List (Ticket J)
  | .dead t => [t]
  | _ => []

/-- The jobs that stopped being in flight. -/
def Play.completed (s : Play J) : List (Ticket J) := s.events Event.completed?

/-- The jobs that were discarded, with the worker whose turn it was. -/
def Play.skipped (s : Play J) : List (Nat × Ticket J) := s.events Event.skipped?

variable {p q : Pool J} {step : Step J} {events : List (Event J)} {i : Nat} {t u : Ticket J}

/-! ## Small facts -/

theorem mem_dead : (i, t) ∈ p.dead ↔ ∃ w, p.workers[i]? = some w ∧ w.phase = .dead t := by
  rw [dead, mem_atWorkers]
  constructor
  · rintro ⟨j, w, here, mem⟩
    split at mem
    · next phase =>
      cases List.mem_singleton.1 mem
      exact ⟨w, here, phase⟩
    · cases mem
  · rintro ⟨w, here, phase⟩
    exact ⟨i, w, here, by simp [phase]⟩

theorem mem_fatal {loop : Loop J} : t ∈ loop.fatal ↔ loop = .dead t := by
  cases loop <;> simp [Loop.fatal, eq_comm]

/-- A worker that was killed has nothing any more. -/
theorem Sound.nothing_of_dead (h : p.Sound) (dead : (i, t) ∈ p.dead) :
    (i, u) ∉ p.slots ++ p.executing ++ p.settling := by
  intro held
  obtain ⟨w, here, phase⟩ := mem_dead.1 dead
  obtain ⟨v, same, mem⟩ := mem_tickets held
  rw [here] at same
  cases same
  have fits := h.fits i w here
  rw [Worker.Fits, phase] at fits
  simp [Worker.tickets, phase, fits.2.1] at mem

/-- While the loop is at work, a worker that is gone was killed. -/
theorem Sound.dead_of_gone {w : Worker J} (h : p.Sound) (held : p.handlesHeld = true)
    (here : p.workers[i]? = some w) (gone : w.gone = true) : ∃ t, (i, t) ∈ p.dead := by
  unfold Worker.gone at gone
  split at gone
  · next stopped =>
    rw [h.stopped i w here stopped] at held
    cases held
  · next t phase => exact ⟨t, mem_dead.2 ⟨w, here, phase⟩⟩
  · cases gone

/-! ## Steps -/

/-- **A worker is killed only by the report of its own job**, which failed or panicked. -/
theorem Moves.of_killed (hm : Moves p step q events) (lost : .lost (.worker i) t ∈ events) :
    ∃ w outcome report, p.workers[i]? = some w ∧ w.phase = .executing t ∧
      outcome.Reports i report ∧ step = .conclude i outcome true ∧
        events = [.ended i t outcome, .reported (.worker i) report, .lost (.worker i) t] := by
  cases hm with
  | concludeFatal here executing _ bad =>
    simp only [List.mem_cons, reduceCtorEq, List.not_mem_nil, or_false, false_or, Event.lost.injEq,
      Thread.worker.injEq] at lost
    obtain ⟨rfl, rfl⟩ := lost
    exact ⟨_, _, _, here, executing, Outcome.report?_eq_some_iff.1 bad, rfl, rfl⟩
  | close | shutDown | join => split at lost <;> simp at lost
  | _ => simp [failStart] at lost

/-- Who was killed stays so. -/
theorem Sound.dead_law (h : p.Sound) (hm : Moves p step q events) :
    (q.dead : Multiset (Nat × Ticket J)) =
      (p.dead : Multiset (Nat × Ticket J)) + (events.filterMap Event.killed? : Multiset _) := by
  have law : (q.dead : Multiset (Nat × Ticket J)) +
        (events.filterMap fun _ => (none : Option (Nat × Ticket J)) : Multiset _) =
      (p.dead : Multiset (Nat × Ticket J)) + (events.filterMap Event.killed? : Multiset _) := by
    refine h.atWorkers_law (fun i w w' events hc => ?_) (fun e he => ⟨?_, rfl⟩) hm
    · cases hc with
      | stopped phase =>
        obtain phase | phase := phase <;> simp [phase, List.filterMap_cons, Event.killed?]
      | _ => simp [*, List.filterMap_cons, Event.killed?]
    · cases e with
      | lost thread => cases thread <;> simp_all [Event.killed?, Event.atWorker]
      | _ => rfl
  simpa only [List.filterMap_none, Multiset.coe_nil, add_zero] using law

theorem Sound.fatal_law (h : p.Sound) (hm : Moves p step q events) :
    (q.loop.fatal : Multiset (Ticket J)) =
      (p.loop.fatal : Multiset (Ticket J)) + (events.filterMap Event.felled? : Multiset _) := by
  cases hm with
  | spawnLoop starting =>
    have loop := h.unstarted (by simp [starting])
    simp [loop, Loop.fatal, List.filterMap_cons, Event.felled?]
  | take loop | stopLoop loop | claim loop | claimGone loop | hand loop | handGone loop
  | discard loop | discardFatal loop | settle loop =>
    simp [loop, Loop.fatal, List.filterMap_cons, Event.felled?]
  | _ => simp [List.filterMap_cons, Event.felled?, failStart]

/-- What is lost is lost with a worker or with the loop. -/
theorem Moves.lost_law (hm : Moves p step q events) :
    (events.filterMap Event.lost? : Multiset (Ticket J)) =
      ((events.filterMap Event.killed?).map (·.2) : Multiset (Ticket J)) +
        (events.filterMap Event.felled? : Multiset (Ticket J)) := by
  cases hm with
  | _ => simp [List.filterMap_cons, Event.lost?, Event.killed?, Event.felled?, failStart]

/-- What is no longer with anybody is complete or lost. -/
theorem Moves.gone_law (hm : Moves p step q events) :
    ((events.filterMap Event.place?).map (·.2) : Multiset (Ticket J)) =
      (events.filterMap Event.completed? : Multiset (Ticket J)) +
        (events.filterMap Event.lost? : Multiset (Ticket J)) := by
  cases hm with
  | _ => simp [List.filterMap_cons, Event.place?, Event.completed?, Event.lost?, failStart]

/-! ## Runs -/

namespace Play

variable {steps : List (Step J)} {s : Play J}

/-- What enters a place and does not leave it is there. -/
theorem gathered {β : Type} (place : Pool J → List β) {enters : Event J → Option β} (sound : p.Sound)
    (empty : place p = [])
    (law : ∀ (p : Pool J) step q events, p.Sound → Moves p step q events →
      (place q : Multiset β) = (place p : Multiset β) + (events.filterMap enters : Multiset β))
    (hs : Play.run? { pool := p } steps = some s) :
    (place s.pool : Multiset β) = (s.events enters : Multiset β) := by
  refine run_induction
    (motive := fun _ s => (place s.pool : Multiset β) = (s.events enters : Multiset β)) ?_ ?_ hs
  · simp [empty, events]
  · intro steps s step q es hs ih hm
    rw [pool_next, law _ _ _ _ (sound.of_run hs) hm, ih, events_next, Multiset.coe_add]

/-- The workers that were killed, with the jobs by whose reports. -/
theorem dead_iff (hp : p.Fresh) (hs : Play.run? { pool := p } steps = some s) :
    (i, t) ∈ s.pool.dead ↔ .lost (.worker i) t ∈ s.history := by
  have all := gathered dead hp.sound (hp.atWorkers_eq_nil fun _ => rfl)
    (fun _ _ _ _ h hm => h.dead_law hm) hs
  rw [← Multiset.mem_coe, all, Multiset.mem_coe, mem_events]
  constructor
  · rintro ⟨e, he, ht⟩
    cases e with
    | lost thread => cases thread <;> cases ht; exact he
    | _ => cases ht
  · exact fun he => ⟨_, he, rfl⟩

/-- The loop was killed by the report of the job that was lost with it. -/
theorem loop_dead_iff (hp : p.Fresh) (hs : Play.run? { pool := p } steps = some s) :
    s.pool.loop = .dead t ↔ .lost .dispatch t ∈ s.history := by
  have all := gathered (fun p => p.loop.fatal) hp.sound (by simp [hp.loop, Loop.fatal])
    (fun _ _ _ _ h hm => h.fatal_law hm) hs
  rw [← mem_fatal, ← Multiset.mem_coe, all, Multiset.mem_coe, mem_events]
  constructor
  · rintro ⟨e, he, ht⟩
    cases e with
    | lost thread => cases thread <;> cases ht; exact he
    | _ => cases ht
  · exact fun he => ⟨_, he, rfl⟩

/-- **The jobs that are lost are those by whose reports a thread was killed.** -/
theorem coe_lost (hp : p.Fresh) (hs : Play.run? { pool := p } steps = some s) :
    (s.lost : Multiset (Ticket J)) =
      (s.pool.dead.map (·.2) : Multiset (Ticket J)) + (s.pool.loop.fatal : Multiset (Ticket J)) := by
  have none : p.dead = [] := hp.atWorkers_eq_nil fun _ => rfl
  rw [Multiset.coe_add]
  refine (gathered (fun p => p.dead.map (·.2) ++ p.loop.fatal) hp.sound ?_ ?_ hs).symm
  · simp [none, hp.loop, Loop.fatal]
  · intro p step q events sound hm
    have dead := congrArg (Multiset.map (·.2)) (sound.dead_law hm)
    simp only [Multiset.map_add, Multiset.map_coe] at dead
    rw [← Multiset.coe_add, ← Multiset.coe_add, dead, sound.fatal_law hm, hm.lost_law]
    abel

/-- What is no longer with anybody is complete, or it is lost. -/
theorem coe_gone_eq (hs : Play.run? { pool := p } steps = some s) :
    (s.gone : Multiset (Ticket J)) = (s.completed : Multiset (Ticket J)) + (s.lost : Multiset _) := by
  refine run_induction
    (motive := fun _ s => (s.gone : Multiset (Ticket J)) =
      (s.completed : Multiset (Ticket J)) + (s.lost : Multiset _)) rfl ?_ hs
  intro steps s step q es _ ih hm
  simp only [gone, completed, lost, events_next, List.map_append, ← Multiset.coe_add] at ih ⊢
  rw [ih, hm.gone_law]
  abel

/-- A job is complete or lost, or still with somebody, and each of them is at one place only. -/
theorem places_nodup (hp : p.Fresh) (hs : Play.run? { pool := p } steps = some s) :
    (s.places.map (·.2)).Nodup := by
  have places := Multiset.coe_eq_coe.1 (coe_places hp hs)
  exact places.nodup_iff.2 (accepted_nodup hp hs)

/-- A job that was lost is never completed. -/
theorem not_completed_of_lost (hp : p.Fresh) (hs : Play.run? { pool := p } steps = some s)
    (ht : t ∈ s.lost) : t ∉ s.completed := by
  have nodup : s.gone.Nodup := by
    refine (places_nodup hp hs).sublist ?_
    rw [places, List.map_append]
    exact List.sublist_append_right ..
  rw [← Multiset.coe_nodup, coe_gone_eq hs] at nodup
  exact fun hc => Multiset.disjoint_left.1 (Multiset.nodup_add.1 nodup).2.2 hc ht

/-- Nor is one that is in the queue. -/
theorem not_completed_of_queue (hp : p.Fresh) (hs : Play.run? { pool := p } steps = some s)
    (ht : t ∈ s.pool.queue) : t ∉ s.completed := by
  intro hc
  have gone : t ∈ s.gone := by
    rw [← Multiset.mem_coe, coe_gone_eq hs]
    exact Multiset.mem_add.2 (.inl hc)
  obtain ⟨⟨place, u⟩, hx, rfl⟩ := List.mem_map.1 gone
  have queue : (.queue, u) ∈ s.places := by simp [places, ht]
  have out : (place, u) ∈ s.places := List.mem_append_right _ hx
  -- It is at one place only, and the queue is none of those where it is gone.
  cases List.inj_on_of_nodup_map (places_nodup hp hs) queue out rfl
  obtain ⟨e, -, he⟩ := mem_events.1 hx
  obtain ⟨place, -⟩ | ⟨j, v, rfl | rfl⟩ | ⟨v, rfl | rfl⟩ := e.gone_cases
  · rw [place] at he
    cases he
  all_goals cases he

/-- **What happened when a worker was killed**: its job ended, failed or panicked, it reported this,
and the job was lost with it. -/
theorem death_isInfix (hs : Play.run? { pool := p } steps = some s)
    (ht : .lost (.worker i) t ∈ s.history) : ∃ outcome report, outcome.Reports i report ∧
      [.ended i t outcome, .reported (.worker i) report, .lost (.worker i) t] <:+:
        s.history.reverse := by
  refine run_induction
    (motive := fun _ s => .lost (.worker i) t ∈ s.history → ∃ outcome report,
      outcome.Reports i report ∧
        [.ended i t outcome, .reported (.worker i) report, .lost (.worker i) t] <:+:
          s.history.reverse) (fun h => nomatch h) ?_ hs ht
  intro steps s step q es _ ih hm ht
  have all : ({ s with pool := q }.record es).history.reverse = s.history.reverse ++ es := by
    simp [record]
  rw [all]
  simp only [record, List.mem_append, List.mem_reverse] at ht
  obtain now | before := ht
  · obtain ⟨w, outcome, report, -, -, bad, -, rfl⟩ := hm.of_killed now
    exact ⟨outcome, report, bad, (List.suffix_append ..).isInfix⟩
  · obtain ⟨outcome, report, bad, happened⟩ := ih before
    exact ⟨outcome, report, bad, happened.trans (List.prefix_append ..).isInfix⟩

/-- The jobs that were begun by a worker that was killed are complete, but for the one by whose report
it was. -/
theorem completed_of_dead (hp : p.Fresh) (hs : Play.run? { pool := p } steps = some s)
    (dead : (i, t) ∈ s.pool.dead) (handed : (i, u) ∈ s.handed) (other : u ≠ t) :
    (i, u) ∈ s.ended ∧ .completed (.worker i) u ∈ s.history := by
  have nothing := (hp.sound.of_run hs).nothing_of_dead dead (u := u)
  simp only [List.mem_append, not_or] at nothing
  obtain ⟨⟨no_slot, not_executing⟩, not_settling⟩ := nothing
  rw [← Multiset.mem_coe, ← slots_add hp hs, Multiset.mem_add] at handed
  have began := handed.resolve_left no_slot
  rw [← executing_add hp hs, Multiset.mem_add] at began
  have ended := began.resolve_left not_executing
  refine ⟨Multiset.mem_coe.1 ended, ?_⟩
  rw [← settling_add hp hs, Multiset.mem_add] at ended
  obtain ⟨e, he, hx⟩ := mem_events.1 (Multiset.mem_coe.1 (ended.resolve_left not_settling))
  cases e with
  | completed thread =>
    cases thread <;> cases hx
    exact he
  | lost thread =>
    cases thread <;> cases hx
    -- It was lost with this worker, which died but once.
    obtain ⟨w, here, phase⟩ := mem_dead.1 dead
    obtain ⟨v, same, phase'⟩ := mem_dead.1 ((dead_iff hp hs).2 he)
    rw [here] at same
    cases same
    rw [phase] at phase'
    cases phase'
    exact absurd rfl other
  | _ => cases hx

/-- The jobs are assigned in the order in which they entered the queue, each to the worker whose turn
it is by its number. -/
theorem assigned_eq (hp : p.Fresh) (hs : Play.run? { pool := p } steps = some s) :
    s.assigned =
      (s.accepted.take s.assigned.length).map fun t => (t.number % p.workerCount, t) := by
  have first : s.accepted.take s.assigned.length = s.assigned.map (·.2) := by
    rw [accepted_eq hp hs, List.take_left' (List.length_map _)]
  rw [first, List.map_map]
  exact (List.map_id s.assigned).symm.trans
    (List.map_congr_left fun x hx => Prod.ext (assigned_turn hp hs x hx) rfl)

/-- What is assigned is handed over, or it is discarded. -/
theorem mem_assigned {x : Nat × Ticket J} : x ∈ s.assigned ↔ x ∈ s.handed ∨ x ∈ s.skipped := by
  have event : ∀ e : Event J, e.assigned? = some x ↔ e.handed? = some x ∨ e.skipped? = some x := by
    intro e
    cases e <;> simp [Event.assigned?, Event.handed?, Event.skipped?]
  have handed : x ∈ s.handed ↔ ∃ e ∈ s.history, e.handed? = some x := mem_events
  rw [assigned, mem_events, handed, skipped, mem_events]
  simp only [event, and_or_left, exists_or]

theorem skipped_map (s : Play J) : s.skipped.map (·.2) = s.discarded := by
  rw [skipped, discarded, events, events, List.map_filterMap]
  refine List.filterMap_congr fun e _ => ?_
  cases e <;> rfl

/-- No job is discarded twice, nor after it was handed over. -/
theorem handed_append_skipped_nodup (hp : p.Fresh)
    (hs : Play.run? { pool := p } steps = some s) :
    (s.handed.map (·.2) ++ s.skipped.map (·.2)).Nodup := by
  have le : ((s.assigned.map (·.2) : List _) : Multiset (Ticket J)) ≤ s.accepted := by
    rw [accepted_eq hp hs, ← Multiset.coe_add]
    exact Multiset.le_add_right _ _
  rw [coe_assigned, ← skipped_map, Multiset.coe_add] at le
  exact Multiset.coe_nodup.1
    (Multiset.nodup_of_le le (Multiset.coe_nodup.2 (accepted_nodup hp hs)))

/-- The job that a worker executes is the last one that was handed to it. -/
theorem handed_le_of_executing (hp : p.Fresh) (hs : Play.run? { pool := p } steps = some s)
    (at_work : (i, t) ∈ s.pool.executing) (handed : (i, u) ∈ s.handed) : u.number ≤ t.number := by
  by_cases same : u = t
  · rw [same]
  · have held := List.mem_append_left s.pool.settling (List.mem_append_right s.pool.slots at_work)
    have mine := began_subset hp hs (executing_subset hp hs at_work)
    exact Nat.le_of_lt
      (number_lt_of_held hp hs mine held (handed_subset s handed) rfl (by simpa using same))

/-- Nothing is handed to a worker that was killed: what was comes before the job by whose report it
died. -/
theorem handed_le_of_lost (hp : p.Fresh) (hs : Play.run? { pool := p } steps = some s)
    (lost : .lost (.worker i) t ∈ s.history) (handed : (i, u) ∈ s.handed) :
    u.number ≤ t.number := by
  refine run_induction
    (motive := fun _ s => .lost (.worker i) t ∈ s.history → (i, u) ∈ s.handed →
      u.number ≤ t.number) (fun h => nomatch h) ?_ hs lost handed
  intro steps s step q es hs ih hm lost handed
  rw [Play.handed, events_next, List.mem_append] at handed
  simp only [record, List.mem_append, List.mem_reverse] at lost
  cases hm with
  | @concludeFatal j w v _ _ here executing =>
    have before : (i, u) ∈ s.handed := handed.resolve_right (by simp)
    obtain now | old := lost
    · simp only [List.mem_cons, reduceCtorEq, List.not_mem_nil, or_false, false_or,
        Event.lost.injEq, Thread.worker.injEq] at now
      obtain ⟨rfl, rfl⟩ := now
      exact handed_le_of_executing hp hs
        (mem_atWorkers.2 ⟨i, w, here, by simp [executing]⟩) before
    · exact ih old before
  | hand loop turn present =>
    have old := lost.resolve_left (by simp)
    obtain before | now := handed
    · exact ih old before
    · -- The worker is not dead, as it is not gone.
      cases List.mem_singleton.1 now
      obtain ⟨v, here, phase⟩ := mem_dead.1 ((dead_iff hp hs).2 old)
      cases turn.symm.trans here
      simp [Worker.gone, phase] at present
  | close | shutDown | join =>
    refine ih (lost.resolve_left ?_) (handed.resolve_right ?_) <;> split <;> simp
  | _ => exact ih (lost.resolve_left (by simp [failStart])) (handed.resolve_right (by simp [failStart]))

/-- **A job is discarded only in the turn of a worker that was killed**, by the report of a job
before. -/
theorem lost_of_skipped (hp : p.Fresh) (hs : Play.run? { pool := p } steps = some s)
    (skipped : (i, u) ∈ s.skipped) :
    ∃ t, .lost (.worker i) t ∈ s.history ∧ t.number < u.number := by
  refine run_induction
    (motive := fun _ s => (i, u) ∈ s.skipped →
      ∃ t, .lost (.worker i) t ∈ s.history ∧ t.number < u.number) (fun h => nomatch h) ?_ hs skipped
  intro steps s step q es hs ih hm skipped
  rw [Play.skipped, events_next, List.mem_append] at skipped
  obtain before | now := skipped
  · obtain ⟨t, lost, less⟩ := ih before
    exact ⟨t, List.mem_append_right _ lost, less⟩
  · have sound := hp.sound.of_run hs
    have key : ∀ v, s.pool.loop = .discarding v →
        ∃ t, .lost (.worker s.pool.cursor) t ∈ s.history ∧ t.number < v.number := by
      intro v loop
      have held := sound.held (by simp [loop]) (by simp [loop, Loop.ended])
      have turn : s.pool.turn? = some _ := List.getElem?_eq_getElem sound.cursor
      have gone := (inTurn hp hs).discarding v _ loop turn
      obtain ⟨t, dead⟩ := sound.dead_of_gone held turn gone
      have lost := (dead_iff hp hs).1 dead
      refine ⟨t, lost, ?_⟩
      -- The job that was lost was assigned before, and this one is the next.
      have left : (s.pool.cursor, t) ∈ s.left := mem_events.2 ⟨_, lost, rfl⟩
      have assigned := handed_subset s
        (began_subset hp hs (ended_subset hp hs (left_subset hp hs left)))
      rw [number_of_ahead hp hs (t := v) (by simp [ahead, loop, Loop.undecided])]
      exact ((mem_assigned_iff hp hs).1 (List.mem_map_of_mem assigned)).2
    have new : ∀ v, s.pool.loop = .discarding v → (i, u) = (s.pool.cursor, v) →
        ∃ t, .lost (.worker i) t ∈ ({ s with pool := q }.record es).history ∧ t.number < u.number := by
      intro v loop same
      cases same
      obtain ⟨t, lost, less⟩ := key u loop
      exact ⟨t, List.mem_append_right _ lost, less⟩
    cases hm with
    | discard loop | discardFatal loop => exact new _ loop (List.mem_singleton.1 now)
    | close | shutDown | join => split at now <;> cases now
    | _ => cases now

/-- **The loop reports each job that it discards, once, and nothing else.** -/
theorem dispatch_reports (hs : Play.run? { pool := p } steps = some s) :
    s.reports.filter (fun x => x.1 = .dispatch) =
      s.skipped.map fun x => (.dispatch, .discarded x.1) := by
  refine run_induction
    (motive := fun _ s => s.reports.filter (fun x => x.1 = .dispatch) =
      s.skipped.map fun x => (.dispatch, .discarded x.1)) rfl ?_ hs
  intro steps s step q es _ ih hm
  rw [reports, events_next, ← reports, List.filter_append, ih, skipped, skipped, events_next,
    List.map_append]
  congr 1
  cases hm with
  | close | shutDown | join => split <;> rfl
  | _ => simp [List.filterMap_cons, Event.skipped?, failStart]

/-- A job that was discarded is complete, or about to be, or the loop was killed by its report. -/
theorem skipped_cases (hp : p.Fresh) (hs : Play.run? { pool := p } steps = some s)
    (skipped : (i, u) ∈ s.skipped) : .completed .dispatch u ∈ s.history ∨
      s.pool.loop = .settling u ∨ s.pool.loop = .dead u := by
  have discarded : u ∈ s.discarded := by
    rw [← skipped_map]
    exact List.mem_map_of_mem skipped
  rw [← Multiset.mem_coe, ← leftover_add hp hs, Multiset.mem_add] at discarded
  obtain leftover | dropped := discarded
  · right
    left
    rw [Multiset.mem_coe] at leftover
    unfold Loop.leftover at leftover
    split at leftover
    · next loop => rw [List.mem_singleton.1 leftover, loop]
    · cases leftover
  · obtain ⟨e, he, hu⟩ := mem_events.1 (Multiset.mem_coe.1 dropped)
    cases e with
    | completed thread =>
      cases thread <;> cases hu
      exact .inl he
    | lost thread =>
      cases thread <;> cases hu
      exact .inr (.inr ((loop_dead_iff hp hs).2 he))
    | _ => cases hu

end Play

end Pool

end BatchPool
