import BatchPool.Proofs.Pool.InFlight

/-!
# Pools that are whole

As long as no report kills the thread that makes it, nothing is lost and nothing is discarded: the
loop never finds a worker gone whose turn it is, since workers stop only after the loop.

* `Pool.Whole`: no thread was killed, and the loop has no job to discard.
* `Sound.whole_next`: a move without a fatal report keeps a pool whole; `Play.whole`: so does a run.
* `Moves.waiting_unrefused`, `Play.unrefused`: while the queue is open, no call is refused that waits for
  room.
* `Pool.Started`: the threads of a running pool were started, and `Pool.Ended`: what a loop leaves
  that has stopped.
-/

namespace BatchPool

namespace Pool

variable {J : Type}

/-- No thread was killed, and the loop has no job to discard. -/
structure Whole (p : Pool J) : Prop where
  workers : ∀ (i : Nat) (w : Worker J), p.workers[i]? = some w → ∀ t, w.phase ≠ .dead t
  loop : ∀ t, p.loop ≠ .discarding t ∧ p.loop ≠ .settling t ∧ p.loop ≠ .dead t

/-- The threads of a running pool were started. While a pool is being started, this goes for the
workers before the one that is next. -/
structure Started (p : Pool J) : Prop where
  loop : p.lifecycle = .running → p.loop ≠ .unborn
  workers : ∀ (i : Nat) (w : Worker J), p.workers[i]? = some w →
    p.lifecycle = .running ∨ (∃ caller n, p.lifecycle = .starting caller n ∧ i < n) →
      w.phase ≠ .unborn

/-- A loop that has stopped left a closed and empty queue. -/
def Ended (p : Pool J) : Prop := p.loop = .stopped → p.closed = true ∧ p.queue = []

variable {p q : Pool J} {step : Step J} {events : List (Event J)}

/-! ## Steps -/

/-- A closed queue stays closed. -/
theorem Moves.closed_next (hm : Moves p step q events) (closed : p.closed = true) :
    q.closed = true := by
  cases hm with
  | close | spawnFails | shutDown | drop | discardFatal => rfl
  | _ => exact closed

/-- A running pool stays so. -/
theorem Moves.running_next (hm : Moves p step q events) (running : p.lifecycle = .running) :
    q.lifecycle = .running := by
  cases hm with
  | startFirst _ lifecycle | spawnFails lifecycle | spawnWorker lifecycle =>
    rw [running] at lifecycle
    cases lifecycle
  | spawnLoop => rfl
  | retire | drop => simp [running]
  | _ => exact running

/-- What is open behind a move was open before. -/
theorem Moves.open_before (hm : Moves p step q events) (unclosed : q.closed = false) :
    p.closed = false := by
  cases closed : p.closed with
  | false => rfl
  | true => rw [hm.closed_next closed] at unclosed; cases unclosed

/-- Nothing enters a closed queue. -/
theorem Moves.accepted_eq_nil (hm : Moves p step q events) (closed : p.closed = true) :
    events.filterMap Event.accepted? = [] := by
  cases hm with
  | insert _ _ unclosed | offerTaken _ unclosed =>
    rw [unclosed] at closed
    cases closed
  | _ => simp [List.filterMap_cons, Event.accepted?, failStart]

theorem Started.loop_next (h : p.Started) (hm : Moves p step q events) :
    q.lifecycle = .running → q.loop ≠ .unborn := by
  cases hm with
  | startFirst _ lifecycle | spawnFails lifecycle | spawnWorker lifecycle =>
    intro running
    cases running
  | retire | drop =>
    intro running
    refine h.loop ?_
    by_cases stopped : p.lifecycle = Lifecycle.stopped
    · simp [stopped] at running
    · simpa [stopped] using running
  | spawnLoop | take | stopLoop | claim | claimGone | hand | handGone | discard | discardFatal
  | settle =>
    intro _
    simp
  | _ => exact h.loop

theorem Started.workers_next (h : p.Started) (hm : Moves p step q events) :
    ∀ (i : Nat) (w : Worker J), q.workers[i]? = some w →
      q.lifecycle = .running ∨ (∃ caller n, q.lifecycle = .starting caller n ∧ i < n) →
        w.phase ≠ .unborn := by
  cases hm with
  | startFirst | spawnFails =>
    rintro i w - (running | ⟨_, _, starting, less⟩)
    · cases running
    · cases starting <;> cases less
  | @spawnWorker caller n v starting here =>
    refine forall_set here (by simp) fun j w other hw started => ?_
    refine h.workers j w hw (.inr ⟨caller, n, starting, ?_⟩)
    obtain running | ⟨_, _, next, less⟩ := started
    · cases running
    · cases next
      omega
  | @spawnLoop caller n starting last =>
    intro i w hw _
    have hi : i < p.workers.length := (List.getElem?_eq_some_iff.1 hw).1
    have hn : p.workers.length ≤ n := List.getElem?_eq_none_iff.1 last
    exact h.workers i w hw (.inr ⟨caller, n, starting, by omega⟩)
  | retire | drop =>
    intro i w hw started
    refine h.workers i w hw ?_
    by_cases stopped : p.lifecycle = Lifecycle.stopped
    · simp [stopped] at started
    · simpa [stopped] using started
  | claim _ here | hand _ here =>
    have self := h.workers _ _ here
    exact forall_set here self fun j v _ => h.workers j v
  | announce here | announceStops here | receive here | receiveStops here | conclude here
  | concludeReported here | concludeFatal here | complete here =>
    exact forall_set here (fun _ => by simp) fun j v _ => h.workers j v
  | _ => exact h.workers

theorem Started.next (h : p.Started) (hm : Moves p step q events) : q.Started where
  loop := h.loop_next hm
  workers := h.workers_next hm

theorem Ended.next (ended : p.Ended) (hm : Moves p step q events) : q.Ended := by
  cases hm with
  | insert _ _ unclosed | offerTaken _ unclosed =>
    intro stopped
    have := (ended stopped).1
    rw [unclosed] at this
    cases this
  | close | shutDown | drop | spawnFails => exact fun stopped => ⟨rfl, (ended stopped).2⟩
  | stopLoop _ queue closed => exact fun _ => ⟨closed, queue⟩
  | spawnLoop | take | claim | claimGone | hand | handGone | discard | discardFatal | settle =>
    intro stopped
    cases stopped
  | _ => exact ended

/-- In a whole pool a worker that will not take a job any more has stopped. -/
theorem Whole.stopped_of_gone {i : Nat} {w : Worker J} (h : p.Whole)
    (here : p.workers[i]? = some w) (gone : w.gone = true) : w.phase = .stopped := by
  unfold Worker.gone at gone
  split at gone
  · assumption
  · next t dead => exact absurd dead (h.workers i w here t)
  · cases gone

/-- So has a loop that has ended. -/
theorem Whole.stopped_of_ended (h : p.Whole) (ended : p.loop.ended = true) : p.loop = .stopped := by
  cases loop : p.loop with
  | stopped => rfl
  | dead t => exact absurd loop (h.loop t).2.2
  | _ => simp [loop, Loop.ended] at ended

/-- In a whole pool the worker whose turn it is does not stop while the loop has a job for it. -/
theorem Sound.present_of_holding {w : Worker J} {t : Ticket J} (h : p.Sound) (whole : p.Whole)
    (holding : p.loop = .holding t ∨ p.loop = .handing t) (turn : p.turn? = some w) :
    w.gone = false := by
  have held : p.handlesHeld = true := by
    obtain loop | loop := holding <;> exact h.held (by simp [loop]) (by simp [loop, Loop.ended])
  unfold Worker.gone
  split
  · next stopped =>
    rw [h.stopped _ _ turn stopped] at held
    cases held
  · next u dead => exact absurd dead (whole.workers _ _ turn u)
  · rfl

/-- **A move without a fatal report keeps a pool whole, and discards nothing.** -/
theorem Sound.whole_next (h : p.Sound) (hm : Moves p step q events) (whole : p.Whole)
    (calm : step.panics = false) : q.Whole ∧ events.filterMap Event.discarded? = [] := by
  have keep := fun (j : Nat) (v : Worker J) => whole.workers j v
  cases hm with
  | discard loop | discardFatal loop => exact absurd loop (whole.loop _).1
  | settle loop => exact absurd loop (whole.loop _).2.1
  | claimGone loop turn _ gone =>
    rw [h.present_of_holding whole (.inl loop) turn] at gone
    cases gone
  | handGone loop turn gone =>
    rw [h.present_of_holding whole (.inr loop) turn] at gone
    cases gone
  | concludeFatal => cases calm
  | spawnLoop | take | stopLoop =>
    exact ⟨⟨whole.workers, by simp⟩, by simp [List.filterMap_cons, Event.discarded?]⟩
  | claim _ here | hand _ here =>
    have self := keep _ _ here
    exact ⟨⟨forall_set here self fun j v _ => keep j v, by simp⟩,
      by simp [List.filterMap_cons, Event.discarded?]⟩
  | spawnWorker _ here | announce here | announceStops here | receive here | receiveStops here
  | conclude here | concludeReported here | complete here =>
    exact ⟨⟨forall_set here (by simp) fun j v _ => keep j v, whole.loop⟩,
      by simp [List.filterMap_cons, Event.discarded?]⟩
  | _ =>
    exact ⟨⟨whole.workers, whole.loop⟩,
      by simp [List.filterMap_cons, Event.discarded?, failStart]⟩

/-- A call begins by the step that does not wait for room. -/
def Step.offers : Step J → Bool
  | .offer _ _ => true
  | _ => false

/-- While the queue is open, no call that waits for room is refused. -/
theorem Moves.waiting_unrefused (hm : Moves p step q events)
    (unrefused : ∀ c ∈ p.waiting, c.refused = false) (unclosed : q.closed = false) :
    ∀ c ∈ q.waiting, c.refused = false := by
  have before := hm.open_before unclosed
  intro c hc
  cases hm with
  | enqueue =>
    obtain old | new := List.mem_append.1 hc
    · exact unrefused c old
    · rw [List.mem_singleton.1 new]
  | insert | rollback => exact unrefused c (List.mem_of_mem_filter hc)
  | refuse _ _ closed =>
    rw [before] at closed
    cases closed
  | _ => exact unrefused c hc

/-- Nor is any other, unless it does not wait. -/
theorem Moves.refused_eq_nil (hm : Moves p step q events) (waits : step.offers = false)
    (unrefused : ∀ c ∈ p.waiting, c.refused = false) : events.filterMap Event.refused? = [] := by
  cases hm with
  | offerClosed | offerFull | offerTaken => cases waits
  | rollback call refused =>
    rw [unrefused _ (List.mem_of_find?_eq_some call)] at refused
    cases refused
  | _ => simp [List.filterMap_cons, Event.refused?, failStart]

/-! ## Runs -/

theorem Fresh.started (h : p.Fresh) : p.Started where
  loop := fun running => by rw [h.lifecycle] at running; cases running
  workers := fun i w _ started => by
    rw [h.lifecycle] at started
    obtain running | ⟨_, _, starting, -⟩ := started
    · cases running
    · cases starting

theorem Fresh.whole (h : p.Fresh) : p.Whole where
  workers := fun i w here t => by rw [h.workers i w here]; simp
  loop := fun t => by simp [h.loop]

namespace Play

variable {steps : List (Step J)} {s : Play J}

theorem started (hp : p.Fresh) (hs : Play.run? { pool := p } steps = some s) : s.pool.Started :=
  run_induction (motive := fun _ s => s.pool.Started) hp.started
    (fun _ _ _ _ _ _ ih hm => ih.next hm) hs

theorem ended_of_stopped (hp : p.Fresh) (hs : Play.run? { pool := p } steps = some s) :
    s.pool.Ended :=
  run_induction (motive := fun _ s => s.pool.Ended)
    (fun stopped => by rw [hp.loop] at stopped; cases stopped)
    (fun _ _ _ _ _ _ ih hm => ih.next hm) hs

/-- **A run without a fatal report leaves a pool whole, and discards nothing.** -/
theorem whole (hp : p.Fresh) (hs : Play.run? { pool := p } steps = some s)
    (calm : ∀ step ∈ steps, step.panics = false) : s.pool.Whole ∧ s.discarded = [] := by
  refine run_induction
    (motive := fun steps s => (∀ step ∈ steps, step.panics = false) →
      s.pool.Whole ∧ s.discarded = []) ?_ ?_ hs calm
  · exact fun _ => ⟨hp.whole, rfl⟩
  · intro steps s step q es hs ih hm calm
    simp only [List.mem_append, List.mem_singleton] at calm
    obtain ⟨whole, before⟩ := ih fun step h => calm step (.inl h)
    obtain ⟨next, now⟩ := (hp.sound.of_run hs).whole_next hm whole (calm step (.inr rfl))
    refine ⟨next, ?_⟩
    rw [discarded, events_next, now, List.append_nil]
    exact before

/-- While the queue is open, no call that waits for room is refused. -/
theorem waiting_unrefused (hp : p.Fresh) (hs : Play.run? { pool := p } steps = some s)
    (unclosed : s.pool.closed = false) : ∀ c ∈ s.pool.waiting, c.refused = false :=
  run_induction
    (motive := fun _ s => s.pool.closed = false → ∀ c ∈ s.pool.waiting, c.refused = false)
    (fun _ => by simp [hp.waiting])
    (fun _ _ _ _ _ _ ih hm unclosed =>
      hm.waiting_unrefused (ih (hm.open_before unclosed)) unclosed) hs unclosed

/-- If all calls wait for room, none was refused either. -/
theorem unrefused (hp : p.Fresh) (hs : Play.run? { pool := p } steps = some s)
    (waits : ∀ step ∈ steps, step.offers = false) (unclosed : s.pool.closed = false) :
    s.refused = [] ∧ ∀ c ∈ s.pool.waiting, c.refused = false := by
  refine ⟨?_, waiting_unrefused hp hs unclosed⟩
  refine run_induction
    (motive := fun steps s => (∀ step ∈ steps, step.offers = false) → s.pool.closed = false →
      s.refused = []) ?_ ?_ hs waits unclosed
  · exact fun _ _ => rfl
  · intro steps s step q es hs ih hm waits unclosed
    simp only [List.mem_append, List.mem_singleton] at waits
    have before := hm.open_before unclosed
    have now := hm.refused_eq_nil (waits step (.inr rfl)) (waiting_unrefused hp hs before)
    rw [Play.refused, events_next, now, List.append_nil]
    exact ih (fun step h => waits step (.inl h)) before

/-- Once the queue is closed it stays so, and nothing enters it any more. -/
theorem shut_run {rest : List (Step J)} {t : Play J} (closed : s.pool.closed = true)
    (h : s.run? rest = some t) : t.pool.closed = true ∧ t.accepted = s.accepted := by
  refine run_preserves (motive := fun t => t.pool.closed = true ∧ t.accepted = s.accepted)
    ⟨closed, rfl⟩ (fun u step q es before hm => ?_) h
  obtain ⟨shut, same⟩ := before
  refine ⟨hm.closed_next shut, ?_⟩
  rw [accepted_eq_events, events_next, hm.accepted_eq_nil shut, List.append_nil]
  exact same

/-- Without a fatal report the jobs that entered the queue are those that were handed over and those
that are ahead. -/
theorem coe_accepted (hp : p.Fresh) (hs : Play.run? { pool := p } steps = some s)
    (calm : ∀ step ∈ steps, step.panics = false) :
    (s.accepted : Multiset (Ticket J)) =
      (s.handed.map (·.2) : Multiset (Ticket J)) + (s.pool.ahead : Multiset (Ticket J)) := by
  rw [accepted_eq hp hs, ← Multiset.coe_add, coe_assigned, (whole hp hs calm).2]
  simp

theorem lost_mem_places {thread : Thread} {t : Ticket J} (h : (.lost thread, t) ∈ s.places) :
    t ∈ s.lost := by
  have event : ∀ e : Event J, e.place? = some (.lost thread, t) → e.lost? = some t := by
    intro e
    obtain ⟨place, -⟩ | ⟨i, u, rfl | rfl⟩ | ⟨u, rfl | rfl⟩ := e.gone_cases
    · simp [place]
    all_goals simp [Event.place?, Event.lost?]
  simp only [places, List.mem_append, List.mem_map, Prod.mk.injEq, reduceCtorEq, false_and,
    and_false, exists_false, false_or, mem_events] at h
  obtain ⟨e, he, hp⟩ := h
  exact mem_events.2 ⟨e, he, event e hp⟩

/-- Without a fatal report a job is in the queue, with the loop, in a slot or with a worker, or it has
ended there. -/
theorem placed (hp : p.Fresh) (hs : Play.run? { pool := p } steps = some s)
    (calm : ∀ step ∈ steps, step.panics = false) :
    ∀ x ∈ s.places, x.1 ≠ .discarded ∧ ∀ thread, x.1 ≠ .lost thread := by
  rintro ⟨place, t⟩ hx
  refine ⟨?_, fun thread => ?_⟩
  · rintro rfl
    have := dropped_subset hp hs (discarded_mem_places hx)
    rw [(whole hp hs calm).2] at this
    cases this
  · rintro rfl
    have := lost_mem_places hx
    rw [lost_eq_nil calm hs] at this
    cases this

end Play

end Pool

end BatchPool
