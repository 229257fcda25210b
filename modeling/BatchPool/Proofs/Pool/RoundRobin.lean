import BatchPool.Proofs.Pool.Places

/-!
# Whose turn it is

The loop assigns the jobs in their order to the workers in turn, and waits for a worker that is not
ready. So a worker that is assigned a job has none, and no job is more than one turn behind.

* `Pool.InTurn`: the cursor, the jobs of the workers and the job of the loop, for a number of jobs
  assigned so far.
* `Sound.inTurn_next`: a move keeps it, and `Play.inTurn`: so does a run.
* `Play.RoundRobin`: what follows for the jobs of a run.
-/

namespace BatchPool

namespace Pool

variable {J : Type}

/-- The jobs that a worker has. -/
def Worker.tickets (w : Worker J) : List (Ticket J) :=
  w.slot.toList ++
    match w.phase with
    | .executing t | .settling t => [t]
    | _ => []

/-- The turns of the workers after `n` jobs were assigned. -/
structure InTurn (p : Pool J) (n : Nat) : Prop where
  /-- It is the turn of the next job, except while a discarded one is being completed. -/
  cursor : (∀ t, p.loop ≠ .settling t ∧ p.loop ≠ .dead t) → p.cursor = n % p.workerCount
  /-- The job that was discarded is the last one assigned, and its turn is not over. -/
  settling : ∀ t, p.loop = .settling t →
    t.number + 1 = n ∧ (p.cursor + 1) % p.workerCount = n % p.workerCount
  /-- A job is discarded because its worker is gone. -/
  discarding : ∀ t w, p.loop = .discarding t → p.turn? = some w → w.gone = true
  /-- What a worker has is its own, and among the jobs of the last turn. -/
  window : ∀ (i : Nat) (w : Worker J), p.workers[i]? = some w → ∀ t ∈ w.tickets,
    t.number % p.workerCount = i ∧ n ≤ t.number + p.workerCount

/-- The jobs that are no longer with anybody: a worker ended them, the loop discarded them, or they
were lost with the one or the other. -/
def Play.gone (s : Play J) : List (Ticket J) := (s.events Event.place?).map (·.2)

/-- Jobs are assigned to `n` workers in turn. -/
structure Play.RoundRobin (n : Nat) (s : Play J) : Prop where
  /-- Jobs are numbered in the order in which they entered the queue. -/
  numbered : s.accepted.map (·.number) = List.range s.accepted.length
  /-- They are assigned in this order, each to the worker whose turn it is. -/
  assigned : s.assigned = (s.accepted.take s.assigned.length).map fun t => (t.number % n, t)
  /-- They are handed to no other worker, and no other worker starts on them. -/
  alone : ∀ x ∈ s.handed ++ s.began, x.1 = x.2.number % n
  /-- When a worker starts on a job, those that are a turn or more ahead are gone. -/
  started : ∀ step q events i t, s.pool.step? step = some (q, events) → .began i t ∈ events →
    ∀ u ∈ s.accepted, u.number + n ≤ t.number → u ∈ s.gone
  /-- What is gone was ended by its worker, or discarded in the turn of this worker. -/
  finished : ∀ u ∈ s.gone, (∃ outcome, .ended (u.number % n) u outcome ∈ s.history) ∨
    .discarded (u.number % n) u ∈ s.history
  /-- A worker starts on its jobs in their order. -/
  ordered : s.began.Pairwise fun x y => x.1 = y.1 → x.2.number < y.2.number
  /-- A job that was assigned and is not gone is one of the `n` that were assigned last. -/
  window : ∀ x ∈ s.assigned, x.2 ∈ s.gone ∨ s.assigned.length ≤ x.2.number + n

variable {p q : Pool J} {step : Step J} {events : List (Event J)} {i n : Nat} {w w' : Worker J}
  {t : Ticket J}

/-! ## Small facts -/

/-- Of two numbers of the same worker's turns that are not a whole turn apart, the smaller one. -/
theorem lt_of_mod_eq {a b : Nat} (same : a % n = b % n) (ne : a ≠ b) (near : a < b + n) :
    a < b := by
  refine Nat.lt_of_not_le fun hle => ?_
  have dvd : n ∣ a - b := Nat.dvd_of_mod_eq_zero (Nat.sub_mod_eq_zero_of_mod_eq same)
  have := Nat.eq_zero_of_dvd_of_lt dvd (by omega)
  omega

/-- What a worker has stands in its slot, or it is at work on it or done with it. -/
theorem mem_tickets (h : (i, t) ∈ p.slots ++ p.executing ++ p.settling) :
    ∃ w, p.workers[i]? = some w ∧ t ∈ w.tickets := by
  rw [List.mem_append, List.mem_append] at h
  obtain (slot | executing) | settling := h
  · obtain ⟨j, w, here, hx⟩ := mem_atWorkers.1 slot
    obtain ⟨u, hu, hx⟩ := List.mem_map.1 hx
    cases hx
    exact ⟨w, here, List.mem_append_left _ hu⟩
  · obtain ⟨j, w, here, hx⟩ := mem_atWorkers.1 executing
    split at hx
    · next phase =>
      cases List.mem_singleton.1 hx
      exact ⟨w, here, by simp [Worker.tickets, phase]⟩
    · cases hx
  · obtain ⟨j, w, here, hx⟩ := mem_atWorkers.1 settling
    split at hx
    · next phase =>
      cases List.mem_singleton.1 hx
      exact ⟨w, here, by simp [Worker.tickets, phase]⟩
    · cases hx

theorem Worker.Changes.tickets (h : Worker.Changes i w w' events) :
    ∀ t ∈ w'.tickets, t ∈ w.tickets ∨ .handed i t ∈ events := by
  cases h with
  | stopped phase slot => obtain phase | phase := phase <;> simp [Worker.tickets, slot]
  | _ => simp_all [Worker.tickets]

theorem Worker.Changes.not_gone (h : Worker.Changes i w w' events) : w.gone = false := by
  cases h with
  | stopped phase => obtain phase | phase := phase <;> simp [Worker.gone, phase]
  | _ => simp_all [Worker.gone]

/-- What a worker has after a step, it had before, or it was handed to it. -/
theorem Sound.tickets_next (h : p.Sound) (hm : Moves p step q events)
    (here : q.workers[i]? = some w') (ht : t ∈ w'.tickets) :
    (∃ w, p.workers[i]? = some w ∧ t ∈ w.tickets) ∨ .handed i t ∈ events := by
  obtain ⟨hw, -⟩ | ⟨j, v, v', hv, hw, hc⟩ := h.change hm
  · exact .inl ⟨w', hw ▸ here, ht⟩
  · rw [hw] at here
    refine forall_set (P := fun i w' => t ∈ w'.tickets →
      (∃ w, p.workers[i]? = some w ∧ t ∈ w.tickets) ∨ .handed i t ∈ events) hv ?_ ?_ i w' here ht
    · intro ht
      exact (hc.tickets t ht).imp (fun h => ⟨v, hv, h⟩) id
    · intro k u _ hu ht
      exact .inl ⟨u, hu, ht⟩

/-- A worker that is gone stays so. -/
theorem Sound.gone_next (h : p.Sound) (hm : Moves p step q events)
    (here : q.workers[i]? = some w') (gone : ∀ w, p.workers[i]? = some w → w.gone = true) :
    w'.gone = true := by
  obtain ⟨hw, -⟩ | ⟨j, v, v', hv, hw, hc⟩ := h.change hm
  · exact gone w' (hw ▸ here)
  · rw [hw] at here
    by_cases hj : j = i
    · subst hj
      have := gone v hv
      rw [hc.not_gone] at this
      cases this
    · rw [List.getElem?_set_ne hj] at here
      exact gone w' here

/-- A step assigns no job, or the next one to the worker whose turn it is. -/
theorem Moves.assigned (hm : Moves p step q events) :
    events.filterMap Event.assigned? = [] ∨
      ∃ t, events.filterMap Event.assigned? = [(p.cursor, t)] ∧ p.ahead.head? = some t ∧
        (p.loop = .handing t ∨ p.loop = .discarding t) := by
  cases hm with
  | hand loop => exact .inr ⟨_, rfl, by simp [ahead, loop, Loop.undecided], .inl loop⟩
  | discard loop | discardFatal loop =>
    exact .inr ⟨_, rfl, by simp [ahead, loop, Loop.undecided], .inr loop⟩
  | _ => left; simp [List.filterMap_cons, Event.assigned?, failStart]

/-! ## Steps -/

/-- The worker that is assigned a job has none. -/
theorem Sound.tickets_turn (h : p.Sound) (turn : p.InTurn n) (here : p.turn? = some w)
    (loop : p.loop = .handing t ∨ p.loop = .discarding t) : w.tickets = [] := by
  have fits := h.fits _ _ here
  obtain handing | discarding := loop
  · simp only [handingTo, handing, decide_true] at fits
    simp [Worker.tickets, fits.listening]
  · have gone := turn.discarding t w discarding here
    unfold Worker.gone at gone
    unfold Worker.Fits at fits
    split at gone
    · next stopped => simp_all [Worker.tickets]
    · next dead => simp_all [Worker.tickets]
    · cases gone

/-- **No move lets a job fall more than one turn behind.** -/
theorem Sound.window_next (h : p.Sound) (hm : Moves p step q events) (turn : p.InTurn n)
    (first : ∀ t, p.ahead.head? = some t → t.number = n) :
    ∀ (i : Nat) (w : Worker J), q.workers[i]? = some w → ∀ t ∈ w.tickets,
      t.number % q.workerCount = i ∧
        n + (events.filterMap Event.assigned?).length ≤ t.number + q.workerCount := by
  intro i w' here t ht
  rw [hm.workerCount_eq]
  have hpos : 0 < p.workerCount := Nat.zero_lt_of_lt h.cursor
  have cursor : ∀ u, p.loop = .handing u ∨ p.loop = .discarding u →
      p.cursor = n % p.workerCount := by
    rintro u (loop | loop) <;> exact turn.cursor (by simp [loop])
  obtain ⟨w, hw, htw⟩ | handed := h.tickets_next hm here ht
  · obtain ⟨mine, near⟩ := turn.window i w hw t htw
    refine ⟨mine, ?_⟩
    obtain none | ⟨u, one, -, loop⟩ := hm.assigned
    · simpa [none] using near
    · -- If the job falls out of the window, its worker is the one whose turn it is.
      rw [one]
      refine Nat.lt_of_le_of_ne near fun (out : n = t.number + p.workerCount) => ?_
      have mod : n % p.workerCount = i := by
        rw [out, Nat.add_mod_right]
        exact mine
      have here : p.turn? = some w := by
        rw [turn?, cursor u loop, mod]
        exact hw
      rw [h.tickets_turn turn here loop] at htw
      cases htw
  · have assigned : (i, t) ∈ events.filterMap Event.assigned? :=
      List.mem_filterMap.2 ⟨_, handed, rfl⟩
    obtain none | ⟨u, one, head, loop⟩ := hm.assigned
    · rw [none] at assigned
      cases assigned
    · rw [one, List.mem_singleton] at assigned
      cases assigned
      rw [one, first t head, cursor t loop]
      exact ⟨rfl, Nat.add_le_add_left hpos n⟩

theorem Sound.cursor_inTurn (h : p.Sound) (hm : Moves p step q events) (turn : p.InTurn n) :
    (∀ t, q.loop ≠ .settling t ∧ q.loop ≠ .dead t) →
      q.cursor = (n + (events.filterMap Event.assigned?).length) % q.workerCount := by
  rw [hm.workerCount_eq]
  cases hm with
  | spawnLoop starting =>
    have loop := h.unstarted (by simp [starting])
    intro _
    exact turn.cursor (by simp [loop])
  | take loop | stopLoop loop | claim loop | claimGone loop | handGone loop =>
    intro _
    exact turn.cursor (by simp [loop])
  | hand loop =>
    intro _
    have := turn.cursor (by simp [loop])
    simp [this, Event.assigned?]
  | @discard t | @discardFatal t =>
    intro still
    simp at still
  | settle loop =>
    intro _
    exact (turn.settling _ loop).2
  | _ => simpa [List.filterMap_cons, Event.assigned?, failStart] using turn.cursor

theorem Moves.settling_inTurn (hm : Moves p step q events) (turn : p.InTurn n)
    (first : ∀ t, p.ahead.head? = some t → t.number = n) :
    ∀ t, q.loop = .settling t →
      t.number + 1 = n + (events.filterMap Event.assigned?).length ∧
        (q.cursor + 1) % q.workerCount =
          (n + (events.filterMap Event.assigned?).length) % q.workerCount := by
  rw [hm.workerCount_eq]
  cases hm with
  | @discard t loop =>
    intro u hu
    cases hu
    have number := first t (by simp [ahead, loop, Loop.undecided])
    have cursor := turn.cursor (by simp [loop])
    simp [number, cursor, List.filterMap_cons, Event.assigned?]
  | spawnLoop | take | stopLoop | claim | claimGone | hand | handGone | discardFatal | settle =>
    intro u hu
    cases hu
  | _ => simpa [List.filterMap_cons, Event.assigned?, failStart] using turn.settling

theorem Sound.discarding_inTurn (h : p.Sound) (hm : Moves p step q events) (turn : p.InTurn n) :
    ∀ t w, q.loop = .discarding t → q.turn? = some w → w.gone = true := by
  intro t w' loop here
  -- The worker whose turn it is was gone before, for the loop has just seen it or knew it already.
  have gone : q.cursor = p.cursor ∧ ∀ w, p.turn? = some w → w.gone = true := by
    cases hm with
    | claimGone _ turn _ gone | handGone _ turn gone =>
      refine ⟨rfl, fun w hw => ?_⟩
      rw [turn] at hw
      cases hw
      exact gone
    | spawnLoop | take | stopLoop | claim | hand | discard | discardFatal | settle => cases loop
    | _ => exact ⟨rfl, fun w => turn.discarding t w loop⟩
  rw [turn?, gone.1] at here
  exact h.gone_next hm here gone.2

/-- **A move keeps the turns.** -/
theorem Sound.inTurn_next (h : p.Sound) (hm : Moves p step q events) (turn : p.InTurn n)
    (first : ∀ t, p.ahead.head? = some t → t.number = n) :
    q.InTurn (n + (events.filterMap Event.assigned?).length) where
  cursor := h.cursor_inTurn hm turn
  settling := hm.settling_inTurn turn first
  discarding := h.discarding_inTurn hm turn
  window := h.window_next hm turn first

theorem Moves.slot_of_began (hm : Moves p step q events) (began : .began i t ∈ events) :
    (i, t) ∈ p.slots := by
  cases hm with
  | receive here _ slot =>
    cases List.mem_singleton.1 began
    exact mem_atWorkers.2 ⟨_, _, here, by simp [slot]⟩
  | close | shutDown | join => split at began <;> simp at began
  | _ => simp [failStart] at began

/-! ## Runs -/

namespace Play

variable {steps : List (Step J)} {s : Play J}

/-- A job has the number of its place among those that entered the queue. -/
theorem number_of_accepted {k : Nat} (hp : p.Fresh)
    (hs : Play.run? { pool := p } steps = some s) (ht : s.accepted[k]? = some t) :
    t.number = k := by
  have numbers := congrArg (·[k]?) (accepted_numbers hp hs)
  simp only [List.getElem?_map, ht, Option.map_some] at numbers
  obtain ⟨hk, hn⟩ := List.getElem?_eq_some_iff.1 numbers.symm
  rw [List.getElem_range] at hn
  exact hn.symm

/-- The job that is next has the number of jobs assigned so far. -/
theorem number_of_ahead (hp : p.Fresh) (hs : Play.run? { pool := p } steps = some s)
    (ht : s.pool.ahead.head? = some t) : t.number = s.assigned.length := by
  refine number_of_accepted hp hs ?_
  rw [accepted_eq hp hs, List.getElem?_append_right (by simp)]
  simpa [List.head?_eq_getElem?] using ht

/-- A job was assigned if its number is one of those assigned so far. -/
theorem mem_assigned_iff (hp : p.Fresh) (hs : Play.run? { pool := p } steps = some s) :
    t ∈ s.assigned.map (·.2) ↔ t ∈ s.accepted ∧ t.number < s.assigned.length := by
  have all := accepted_eq hp hs
  constructor
  · intro ht
    obtain ⟨k, hk⟩ := List.mem_iff_getElem?.1 ht
    obtain ⟨hlt, -⟩ := List.getElem?_eq_some_iff.1 hk
    have hacc : s.accepted[k]? = some t := by
      rw [all, List.getElem?_append_left hlt]
      exact hk
    rw [number_of_accepted hp hs hacc]
    exact ⟨List.mem_of_getElem? hacc, by simpa using hlt⟩
  · rintro ⟨ht, hlt⟩
    obtain ⟨k, hk⟩ := List.mem_iff_getElem?.1 ht
    rw [number_of_accepted hp hs hk] at hlt
    rw [all, List.getElem?_append_left (by simpa using hlt)] at hk
    exact List.mem_of_getElem? hk

/-- **A run keeps the turns.** -/
theorem inTurn (hp : p.Fresh) (hs : Play.run? { pool := p } steps = some s) :
    s.pool.InTurn s.assigned.length := by
  refine run_induction (motive := fun _ s => s.pool.InTurn s.assigned.length) ?_ ?_ hs
  · have start : p.InTurn 0 := {
      cursor := fun _ => by rw [hp.cursor, Nat.zero_mod]
      settling := fun t loop => by rw [hp.loop] at loop; cases loop
      discarding := fun t w loop => by rw [hp.loop] at loop; cases loop
      window := fun i w here t ht => by rw [hp.workers i w here] at ht; cases ht }
    exact start
  · intro steps s step q es hs ih hm
    have := (hp.sound.of_run hs).inTurn_next hm ih fun t => number_of_ahead hp hs
    simpa only [pool_next, assigned, events_next, List.length_append] using this

theorem workerCount_eq (hs : Play.run? { pool := p } steps = some s) :
    s.pool.workerCount = p.workerCount :=
  run_induction (motive := fun _ s => s.pool.workerCount = p.workerCount) rfl
    (fun _ _ _ _ _ _ ih hm => hm.workerCount_eq.trans ih) hs

theorem capacity_eq (hs : Play.run? { pool := p } steps = some s) :
    s.pool.capacity = p.capacity :=
  run_induction (motive := fun _ s => s.pool.capacity = p.capacity) rfl
    (fun _ _ _ _ _ _ ih hm => hm.capacity_eq.trans ih) hs

/-- The queue never holds more jobs than it has room for. -/
theorem queue_le (hp : p.Fresh) (hs : Play.run? { pool := p } steps = some s) :
    s.pool.queue.length ≤ p.capacity := by
  refine run_induction (motive := fun _ s => s.pool.queue.length ≤ p.capacity) ?_ ?_ hs
  · simp [hp.queue]
  · intro steps s step q es hs ih hm
    have capacity := capacity_eq hs
    cases hm with
    | insert _ _ _ room | offerTaken _ _ room =>
      simp only [isFull, decide_eq_false_iff_not, capacity] at room
      simp only [pool_next, List.length_append, List.length_singleton]
      omega
    | take _ queue =>
      rw [queue, List.length_cons] at ih
      exact Nat.le_of_succ_le ih
    | _ => exact ih

/-- Each job is assigned to the worker whose turn it is by its number. -/
theorem assigned_turn (hp : p.Fresh) (hs : Play.run? { pool := p } steps = some s) :
    ∀ x ∈ s.assigned, x.1 = x.2.number % p.workerCount := by
  refine run_induction
    (motive := fun _ s => ∀ x ∈ s.assigned, x.1 = x.2.number % p.workerCount) ?_ ?_ hs
  · intro x hx
    cases hx
  · intro steps s step q es hs ih hm x hx
    rw [assigned, events_next, List.mem_append] at hx
    obtain before | now := hx
    · exact ih x before
    · obtain none | ⟨t, one, head, loop⟩ := hm.assigned
      · rw [none] at now
        cases now
      · rw [one, List.mem_singleton] at now
        subst now
        have cursor := (inTurn hp hs).cursor (by obtain loop | loop := loop <;> simp [loop])
        rw [workerCount_eq hs] at cursor
        show s.pool.cursor = t.number % p.workerCount
        rw [cursor, number_of_ahead hp hs head]

/-- A job that was assigned is gone, or with its worker, or with the loop. -/
theorem window (hp : p.Fresh) (hs : Play.run? { pool := p } steps = some s)
    (ht : t ∈ s.assigned.map (·.2)) :
    t ∈ s.gone ∨ s.assigned.length ≤ t.number + p.workerCount := by
  have turn := inTurn hp hs
  have hpos := hp.workerCount
  have out : t ∈ s.left.map (·.2) ∨ t ∈ s.dropped → t ∈ s.gone := by
    intro h
    rw [gone, ← Multiset.mem_coe, coe_gone]
    exact Multiset.mem_add.2 h
  rw [← Multiset.mem_coe, coe_assigned] at ht
  obtain handed | discarded := Multiset.mem_add.1 ht
  · obtain ⟨⟨i, t⟩, hx, rfl⟩ := List.mem_map.1 (Multiset.mem_coe.1 handed)
    rw [← Multiset.mem_coe, ← slots_add hp hs, ← executing_add hp hs, ← settling_add hp hs] at hx
    by_cases held : (i, t) ∈ s.pool.slots ++ s.pool.executing ++ s.pool.settling
    · obtain ⟨w, here, hw⟩ := mem_tickets held
      rw [← workerCount_eq hs]
      exact .inr (turn.window i w here t hw).2
    · refine .inl (out (.inl (List.mem_map.2 ⟨(i, t), ?_, rfl⟩)))
      simp only [List.mem_append, not_or] at held
      simpa [held] using hx
  · rw [← leftover_add hp hs] at discarded
    obtain leftover | dropped := Multiset.mem_add.1 discarded
    · right
      rw [Multiset.mem_coe] at leftover
      unfold Loop.leftover at leftover
      split at leftover
      · next u loop =>
        cases List.mem_singleton.1 leftover
        have := (turn.settling t loop).1
        omega
      · cases leftover
    · exact .inl (out (.inr dropped))

/-- No job is handed over twice. -/
theorem handed_nodup (hp : p.Fresh) (hs : Play.run? { pool := p } steps = some s) :
    s.handed.Nodup := by
  have accepted := Multiset.coe_nodup.2 (accepted_nodup hp hs)
  have jobs := Multiset.coe_nodup.1 (Multiset.nodup_of_le (handed_le hp hs) accepted)
  exact jobs.of_map

/-- A job that a worker has comes behind all others that were assigned to it. -/
theorem number_lt_of_held {x : Nat × Ticket J} (hp : p.Fresh)
    (hs : Play.run? { pool := p } steps = some s) (handed : (i, t) ∈ s.handed)
    (held : (i, t) ∈ s.pool.slots ++ s.pool.executing ++ s.pool.settling) (assigned : x ∈ s.assigned)
    (mine : x.1 = i) (other : x ≠ (i, t)) : x.2.number < t.number := by
  obtain ⟨xaccepted, before⟩ := (mem_assigned_iff hp hs).1 (List.mem_map_of_mem assigned)
  obtain ⟨taccepted, -⟩ :=
    (mem_assigned_iff hp hs).1 (List.mem_map_of_mem (handed_subset s handed))
  obtain ⟨w, here, hw⟩ := mem_tickets held
  obtain ⟨same, near⟩ := (inTurn hp hs).window i w here t hw
  rw [workerCount_eq hs] at same near
  refine lt_of_mod_eq (n := p.workerCount) ?_ (fun number => ?_) (by omega)
  · rw [same, ← mine, assigned_turn hp hs x assigned]
  · obtain ⟨k, hk⟩ := List.mem_iff_getElem?.1 xaccepted
    obtain ⟨l, hl⟩ := List.mem_iff_getElem?.1 taccepted
    rw [number_of_accepted hp hs hk, number_of_accepted hp hs hl] at number
    rw [number, hl, Option.some.injEq] at hk
    exact other (Prod.ext mine hk.symm)

/-- A worker has started on no job that comes behind the one in its slot, nor on this one. -/
theorem began_before_slot {x : Nat × Ticket J} (hp : p.Fresh)
    (hs : Play.run? { pool := p } steps = some s) (slot : (i, t) ∈ s.pool.slots)
    (began : x ∈ s.began) (mine : x.1 = i) : x.2.number < t.number := by
  have once := handed_nodup hp hs
  rw [← Multiset.coe_nodup, ← slots_add hp hs] at once
  have held := List.mem_append_left s.pool.settling (List.mem_append_left s.pool.executing slot)
  refine number_lt_of_held hp hs (slots_subset hp hs slot) held
    (handed_subset s (began_subset hp hs began)) mine ?_
  -- Were it the same job, it would have been handed over twice.
  rintro rfl
  exact Multiset.disjoint_left.1 (Multiset.nodup_add.1 once).2.2 slot began

/-- Each worker starts on its jobs in their order. -/
theorem began_ordered (hp : p.Fresh) (hs : Play.run? { pool := p } steps = some s) :
    s.began.Pairwise fun x y => x.1 = y.1 → x.2.number < y.2.number := by
  refine run_induction
    (motive := fun _ s => s.began.Pairwise fun x y => x.1 = y.1 → x.2.number < y.2.number) ?_ ?_ hs
  · exact .nil
  · intro steps s step q es hs ih hm
    have next : ({ s with pool := q }.record es).began = s.began ++ es.filterMap Event.began? :=
      events_next s q es Event.began?
    rw [next]
    cases hm with
    | @receive i w t here _ slot =>
      rw [List.pairwise_append]
      refine ⟨ih, List.pairwise_singleton _ _, fun x hx y hy mine => ?_⟩
      cases List.mem_singleton.1 hy
      have filled : (i, t) ∈ s.pool.slots :=
        mem_atWorkers.2 ⟨i, w, here, by simp [slot]⟩
      exact began_before_slot hp hs filled hx mine
    | _ => simpa [List.filterMap_cons, Event.began?, failStart] using ih

/-- What is gone was ended by its worker, or discarded in the turn of this worker. -/
theorem gone_finished (hp : p.Fresh) (hs : Play.run? { pool := p } steps = some s)
    (ht : t ∈ s.gone) : (∃ outcome, .ended (t.number % p.workerCount) t outcome ∈ s.history) ∨
      .discarded (t.number % p.workerCount) t ∈ s.history := by
  have turn := assigned_turn hp hs
  rw [gone, ← Multiset.mem_coe, coe_gone] at ht
  obtain left | dropped := Multiset.mem_add.1 ht
  · obtain ⟨⟨i, t⟩, hx, rfl⟩ := List.mem_map.1 (Multiset.mem_coe.1 left)
    have ended := left_subset hp hs hx
    have handed := began_subset hp hs (ended_subset hp hs ended)
    have mine : i = t.number % p.workerCount := turn _ (handed_subset s handed)
    obtain ⟨e, he, hxe⟩ := mem_events.1 ended
    cases e <;> cases hxe
    exact .inl ⟨_, mine ▸ he⟩
  · have discarded := dropped_subset hp hs dropped
    obtain ⟨e, he, hxe⟩ := mem_events.1 discarded
    cases e with
    | discarded i t =>
      cases hxe
      have mine : i = t.number % p.workerCount := turn _ (mem_events.2 ⟨_, he, rfl⟩)
      exact .inr (mine ▸ he)
    | _ => cases hxe

/-- **Jobs are assigned to the workers in turn, and no job is more than one turn behind.** -/
theorem roundRobin {c : PoolConfig} {processors : Nat} (hp : create c processors = .ok p)
    (hs : Play.run? { pool := p } steps = some s) : s.RoundRobin (c.workers processors) := by
  have fresh := Fresh.of_create hp
  rw [← workerCount_of_create hp]
  have turn := assigned_turn fresh hs
  have all := accepted_eq fresh hs
  exact {
    numbered := accepted_numbered fresh hs
    assigned := by
      have first : s.accepted.take s.assigned.length = s.assigned.map (·.2) := by
        rw [all, List.take_left' (List.length_map _)]
      rw [first, List.map_map]
      exact (List.map_id s.assigned).symm.trans
        (List.map_congr_left fun x hx => Prod.ext (turn x hx) rfl)
    alone := fun x hx => by
      obtain handed | began := List.mem_append.1 hx
      · exact turn x (handed_subset s handed)
      · exact turn x (handed_subset s (began_subset fresh hs began))
    started := fun step q events i t hstep began u hu behind => by
      have slot := (Moves.of_step? hstep).slot_of_began began
      have handed := handed_subset s (slots_subset fresh hs slot)
      have before : t.number < s.assigned.length :=
        ((mem_assigned_iff fresh hs).1 (List.mem_map_of_mem handed)).2
      have assigned := (mem_assigned_iff fresh hs).2 ⟨hu, by omega⟩
      obtain gone | near := window fresh hs assigned
      · exact gone
      · omega
    finished := fun u hu => gone_finished fresh hs hu
    ordered := began_ordered fresh hs
    window := fun x hx => window fresh hs (List.mem_map_of_mem hx) }

theorem roundRobin_mixedRun :
    ∃ s, Play.run? { pool := mixedPool } mixedRun = some s ∧ s.RoundRobin 2 :=
  ⟨_, rfl, roundRobin (c := { queueCapacity := 1, workerCount := some 2, threadName := "a" })
    (show create _ 1 = .ok mixedPool from rfl) (show Play.run? _ mixedRun = _ from rfl)⟩

end Play

end Pool

end BatchPool
