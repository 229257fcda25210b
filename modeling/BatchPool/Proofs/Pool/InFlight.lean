import BatchPool.Proofs.Pool.Places

/-!
# What is in flight

The number of jobs in flight is kept by a counter. A call that waits raises it before its job enters
the queue; the workers, the loop and the refused calls lower it.

* `Pool.jobs`: the jobs that are with somebody, counted one by one.
* `Sound.inFlight_next`: a move changes the counter by as much as it changes what is counted.
* `Pool.AtRest`: no call waits, and nobody has a job.
* `Play.Counted`: what follows for the counter after a run.
-/

namespace BatchPool

namespace Pool

variable {J : Type}

/-- The job that was lost with the thread that had it. -/
def Event.lost? : Event J → Option (Ticket J)
  | .lost _ t => some t
  | _ => none

/-- The jobs that were lost with the thread that had them. -/
def Play.lost (s : Play J) : List (Ticket J) := s.events Event.lost?

/-- The number of jobs in the queue, with the loop, in the slots and with the workers. -/
def jobs (p : Pool J) : Nat :=
  p.queue.length + (p.loop.undecided ++ p.loop.leftover).length + p.slots.length +
    p.executing.length + p.settling.length

/-- The step lowers the counter. -/
def Step.completes : Step J → Bool
  | .rollback _ | .settle | .complete _ => true
  | _ => false

/-- A report that is made in the step kills its thread. -/
def Step.panics : Step J → Bool
  | .discard panics | .conclude _ _ panics => panics
  | _ => false

/-- No call waits, and nobody has a job. -/
structure AtRest (p : Pool J) : Prop where
  waiting : p.waiting = []
  queue : p.queue = []
  loop : p.loop.undecided ++ p.loop.leftover = []
  slots : ∀ w ∈ p.workers, w.slot = none
  workers : ∀ w ∈ p.workers, ∀ t, w.phase ≠ .executing t ∧ w.phase ≠ .settling t

variable {p q : Pool J} {step : Step J} {events : List (Event J)}

/-! ## Nothing with anybody -/

/-- The workers have nothing, as no single one has anything. -/
theorem atWorkers_eq_nil_iff {β : Type} {f : Nat → Worker J → List β} {P : Worker J → Prop}
    (empty : ∀ i w, f i w = [] ↔ P w) : p.atWorkers f = [] ↔ ∀ w ∈ p.workers, P w := by
  rw [List.eq_nil_iff_forall_not_mem]
  constructor
  · intro h w hw
    obtain ⟨i, hi⟩ := List.mem_iff_getElem?.1 hw
    rw [← empty i w, List.eq_nil_iff_forall_not_mem]
    exact fun x hx => h x (mem_atWorkers.2 ⟨i, w, hi, hx⟩)
  · intro h x hx
    obtain ⟨i, w, hi, hx⟩ := mem_atWorkers.1 hx
    rw [(empty i w).2 (h w (List.mem_of_getElem? hi))] at hx
    cases hx

theorem atRest_iff : p.AtRest ↔ p.waiting.length + p.jobs = 0 := by
  have slots : p.slots = [] ↔ ∀ w ∈ p.workers, w.slot = none :=
    atWorkers_eq_nil_iff fun i w => by cases w.slot <;> simp
  have executing : p.executing = [] ↔ ∀ w ∈ p.workers, ∀ t, w.phase ≠ .executing t :=
    atWorkers_eq_nil_iff fun i w => by cases w.phase <;> simp
  have settling : p.settling = [] ↔ ∀ w ∈ p.workers, ∀ t, w.phase ≠ .settling t :=
    atWorkers_eq_nil_iff fun i w => by cases w.phase <;> simp
  simp only [jobs, Nat.add_eq_zero_iff, List.length_eq_zero_iff, slots, executing, settling]
  constructor
  · rintro ⟨waiting, queue, loop, slots, workers⟩
    exact ⟨waiting, ⟨⟨⟨queue, loop⟩, slots⟩, fun w hw t => (workers w hw t).1⟩,
      fun w hw t => (workers w hw t).2⟩
  · rintro ⟨waiting, ⟨⟨⟨queue, loop⟩, slots⟩, executing⟩, settling⟩
    exact ⟨waiting, queue, loop, slots, fun w hw t => ⟨executing w hw t, settling w hw t⟩⟩

/-! ## Steps -/

/-- A job that enters the queue is with somebody until it leaves a worker or is dropped. -/
theorem Sound.jobs_next (h : p.Sound) (hm : Moves p step q events) :
    q.jobs + (events.filterMap Event.left?).length + (events.filterMap Event.dropped?).length =
      p.jobs + (events.filterMap Event.accepted?).length := by
  have ahead := congrArg List.length (h.ahead_law hm)
  have leftover := congrArg Multiset.card (h.leftover_law hm)
  have slots := congrArg Multiset.card (h.slots_law hm)
  have executing := congrArg Multiset.card (h.executing_law hm)
  have settling := congrArg Multiset.card (h.settling_law hm)
  have assigned := congrArg Multiset.card (Event.coe_assigned events)
  simp only [Pool.ahead, List.length_append, List.length_map] at ahead
  simp only [Multiset.card_add, Multiset.coe_card] at leftover slots executing settling
  simp only [Multiset.card_add, Multiset.coe_card, List.length_map] at assigned
  simp only [jobs, List.length_append]
  omega

/-- **The counter changes by as much as what is counted.** A step that lowers it finds it
positive. -/
theorem Sound.inFlight_next {lost : Nat} (h : p.Sound) (hm : Moves p step q events)
    (nodup : (p.waiting.map (·.caller)).Nodup)
    (exact : p.inFlight = p.waiting.length + p.jobs + lost) :
    q.inFlight = q.waiting.length + q.jobs + (lost + (events.filterMap Event.lost?).length) ∧
      (step.completes = true → q.inFlight + 1 = p.inFlight) := by
  have waiting := hm.length_waiting nodup
  have jobs := h.jobs_next hm
  cases hm
  all_goals
    simp [List.filterMap_cons, Event.accepted?, Event.dropped?, Event.left?, Event.lost?, failStart,
      Step.completes, Step.enqueues, Step.returns] at jobs waiting ⊢
    omega

/-! ## Runs -/

namespace Play

/-- The counter of in-flight jobs is exact after a run. -/
structure Counted (steps : List (Step J)) (s : Play J) : Prop where
  /-- In flight are the calls that wait, the jobs in the queue, with the loop, in the slots and with
  the workers, and the jobs that were lost. -/
  exact : s.pool.inFlight =
    s.pool.waiting.length + s.pool.queue.length +
      (s.pool.loop.undecided ++ s.pool.loop.leftover).length + s.pool.slots.length +
      (s.pool.executing ++ s.pool.settling).length + s.lost.length
  /-- The calls that wait have raised the counter, and neither inserted their job nor taken it
  back. -/
  waiting : s.pool.waiting.length + steps.countP Step.returns = steps.countP Step.enqueues
  /-- A step that lowers the counter finds it positive, and lowers it by one. -/
  completes : ∀ step q events, s.pool.step? step = some (q, events) → step.completes = true →
    0 < s.pool.inFlight ∧ q.inFlight + 1 = s.pool.inFlight
  /-- An offer that is not accepted does not change the pool. -/
  refused : ∀ caller job q events, s.pool.step? (.offer caller job) = some (q, events) →
    events.filterMap Event.accepted? = [] → q = s.pool
  /-- If no report killed its thread, nothing is in flight exactly if nobody has anything. -/
  atRest : (∀ step ∈ steps, step.panics = false) → (s.pool.inFlight = 0 ↔ s.pool.AtRest)
  /-- Then a call that waits for this returns, and not before. -/
  idle : (∀ step ∈ steps, step.panics = false) → ∀ caller, s.pool.mayCall caller = true →
    ((∃ t, s.step? (.idle caller) = some t) ↔ s.pool.AtRest)

variable {p : Pool J} {steps : List (Step J)} {s : Play J}

/-- In flight is what is counted one by one. -/
theorem inFlight_eq (hp : p.Fresh) (hs : Play.run? { pool := p } steps = some s) :
    s.pool.inFlight = s.pool.waiting.length + s.pool.jobs + s.lost.length := by
  refine run_induction
    (motive := fun _ s =>
      s.pool.inFlight = s.pool.waiting.length + s.pool.jobs + s.lost.length) ?_ ?_ hs
  · have slots : p.slots = [] := hp.atWorkers_eq_nil fun _ => rfl
    have executing : p.executing = [] := hp.atWorkers_eq_nil fun _ => rfl
    have settling : p.settling = [] := hp.atWorkers_eq_nil fun _ => rfl
    simp [hp.inFlight, hp.waiting, hp.queue, hp.loop, jobs, slots, executing, settling,
      Loop.undecided, Loop.leftover, lost, events]
  · intro steps s step q es hs ih hm
    have next := ((hp.sound.of_run hs).inFlight_next hm (waiting_callers hp hs) ih).1
    simpa only [pool_next, lost, events_next, List.length_append] using next

/-- Nothing is lost if no report kills its thread. -/
theorem lost_eq_nil (quiet : ∀ step ∈ steps, step.panics = false)
    (hs : Play.run? { pool := p } steps = some s) : s.lost = [] := by
  refine run_induction
    (motive := fun steps s => (∀ step ∈ steps, step.panics = false) → s.lost = []) ?_ ?_ hs quiet
  · intro _
    rfl
  · intro steps s step q es hs ih hm quiet
    simp only [List.mem_append, List.mem_singleton] at quiet
    have before := ih fun step h => quiet step (.inl h)
    have now := quiet step (.inr rfl)
    simp only [lost, events_next, List.append_eq_nil_iff] at before ⊢
    refine ⟨before, ?_⟩
    cases hm with
    | discardFatal | concludeFatal => cases now
    | _ => simp [List.filterMap_cons, Event.lost?, failStart]

/-- **The counter of in-flight jobs is exact.** -/
theorem counted {c : PoolConfig} {processors : Nat} (hp : create c processors = .ok p)
    (hs : Play.run? { pool := p } steps = some s) : s.Counted steps := by
  have fresh := Fresh.of_create hp
  have exact := inFlight_eq fresh hs
  have quiet : (∀ step ∈ steps, step.panics = false) → (s.pool.inFlight = 0 ↔ s.pool.AtRest) := by
    intro quiet
    rw [atRest_iff, exact, lost_eq_nil quiet hs]
    rfl
  exact {
    exact := by
      rw [exact, jobs]
      simp only [List.length_append]
      omega
    waiting := enqueues_eq fresh hs
    completes := fun step q events hstep completes => by
      have sound := fresh.sound.of_run hs
      have nodup := waiting_callers fresh hs
      have lowered := (sound.inFlight_next (.of_step? hstep) nodup exact).2 completes
      exact ⟨by omega, lowered⟩
    refused := fun caller job q events hstep unaccepted => by
      cases Moves.of_step? hstep with
      | offerClosed | offerFull => rfl
      | offerTaken => cases unaccepted
    atRest := quiet
    idle := fun h caller free => by
      rw [← quiet h]
      constructor
      · rintro ⟨t, ht⟩
        obtain ⟨q, events, hm, -⟩ := moves_of_step? ht
        cases hm
        assumption
      · intro none
        have idle : s.pool.step? (.idle caller) = some (s.pool, [.idle caller]) := by
          simp [Pool.step?, Pool.idle, free, none]
        exact ⟨_, by rw [Play.step?, idle]⟩ }

theorem counted_mixedRun :
    ∃ s, Play.run? { pool := mixedPool } mixedRun = some s ∧
      s.pool.inFlight = 1 ∧ s.lost.length = 1 ∧ s.Counted mixedRun :=
  ⟨_, rfl, rfl, rfl, counted (c := { queueCapacity := 1, workerCount := some 2, threadName := "a" })
    (show create _ 1 = .ok mixedPool from rfl) rfl⟩

end Play

end Pool

end BatchPool
