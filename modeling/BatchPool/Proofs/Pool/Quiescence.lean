import BatchPool.Proofs.Pool.Steered
import BatchPool.Proofs.Pool.Toil

/-!
# A running pool comes to rest

A pool that runs and is open does all that it was given, if its work functions return and make no call
but offers: it goes on by itself until nothing is left, and all its threads wait for a job.

* `Step.internal`: the steps that the pool makes by itself, and `Step.spawns`: the offers of work
  functions.
* `Pool.Awake`: what such steps keep, and `Awake.advances`: the pool goes on while there is a job or a
  call that waits.
* `Awake.listening`: and when it does not, its threads wait for a job.
* `Play.length_add_toil_le`: only offers add to what it has to do.
* `Play.Spawned`: a job that the work function offered while it was at work on another one.
  `Play.not_endless`: a pool does not go on for ever if every job spawns only finitely many.
* `Play.Quiesces`: all that follows.
-/

namespace BatchPool

namespace Pool

variable {J : Type}

/-- The pool makes the step by itself, and no report kills its thread: the job of a call that waits
enters the queue, or the loop or a worker moves. -/
def Step.internal : Step J → Bool
  | .insert _ | .take | .claim | .hand | .discard false | .settle | .announce _ | .receive _
  | .conclude _ _ false | .complete _ => true
  | _ => false

/-- A work function offers a job. -/
def Step.spawns : Step J → Bool
  | .offer (.worker _) _ => true
  | _ => false

/-- The pool makes the step without a call from outside. -/
def Step.own (step : Step J) : Bool := step.internal || step.spawns

/-- No work function begins a call by the step, unless it offers a job. -/
def Step.modest : Step J → Bool
  | .enqueue (.worker _) _ | .close (.worker _) | .start (.worker _) | .shutDown (.worker _)
  | .idle (.worker _) => false
  | _ => true

/-- The pool goes on by itself. If it does so by ending a work function, this may end with the given
outcome. -/
def Advances (p : Pool J) (outcome : Outcome) : Prop :=
  ∃ step, step.internal = true ∧
    (∀ i other panics, step = .conclude i other panics → other = outcome) ∧
      (p.step? step).isSome = true

/-- What holds of a pool that runs and is open, if no report has killed a thread and work functions have
made no call but offers. -/
structure Awake (p : Pool J) : Prop where
  sound : p.Sound
  started : p.Started
  whole : p.Whole
  ended : p.Ended
  running : p.lifecycle = .running
  unclosed : p.closed = false
  room : 0 < p.capacity
  callers : (p.waiting.map (·.caller)).Nodup
  unrefused : ∀ c ∈ p.waiting, c.refused = false
  free : ∀ i, p.busy (.worker i) = false

variable {p q : Pool J} {step : Step J} {events : List (Event J)} {i : Nat} {outcome : Outcome}

/-! ## Steps -/

theorem Step.panics_of_own (own : step.own = true) : step.panics = false := by
  cases step with
  | discard panics | conclude _ _ panics =>
    cases panics with
    | false => rfl
    | true => cases own
  | _ => rfl

theorem Step.modest_of_own (own : step.own = true) : step.modest = true := by
  cases step with
  | enqueue | close | start | shutDown | idle => cases own
  | _ => rfl

theorem Step.enqueues_of_own (own : step.own = true) : step.enqueues = false := by
  cases step with
  | enqueue => cases own
  | _ => rfl

/-- Only offers bring in something to do. -/
theorem Step.price_of_own (own : step.own = true) : step.price 0 = 8 * step.spawns.toNat := by
  cases step with
  | offer caller =>
    cases caller with
    | worker => rfl
    | client | dispatch => cases own
  | enqueue | shutDown | start | close | idle | drop => cases own
  | _ => rfl

/-- The pool does not close its queue by itself. -/
theorem Moves.unclosed_next (hm : Moves p step q events) (own : step.own = true)
    (unclosed : p.closed = false) : q.closed = false := by
  cases hm with
  | close | spawnFails | shutDown | drop | discardFatal => cases own
  | _ => exact unclosed

/-- A worker is in no call, as an offer returns at once. -/
theorem Moves.free_next (hm : Moves p step q events) (modest : step.modest = true)
    (free : p.busy (.worker i) = false) : q.busy (.worker i) = false := by
  cases offers : step.offers with
  | true =>
    cases hm with
    | offerClosed | offerFull | offerTaken => exact free
    | _ => cases offers
  | false =>
    refine hm.busy_next free fun mine => ?_
    cases step with
    | offer => cases offers
    | enqueue | close | start | shutDown | idle =>
      cases mine
      cases modest
    | _ => cases mine

/-- The job of a call that waits stays there until it enters the queue. -/
theorem Moves.insert_or_waits (hm : Moves p step q events) (own : step.own = true)
    (callers : (p.waiting.map (·.caller)).Nodup) {c : Waiting J} (hc : c ∈ p.waiting) :
    c ∈ q.waiting ∨ ∃ number, .accepted c.caller ⟨number, c.job⟩ ∈ events := by
  cases hm with
  | enqueue | refuse | rollback => cases own
  | @insert caller d call =>
    by_cases mine : c.caller = caller
    · have found : p.waitingOf? c.caller = some c := find?_of_mem Waiting.caller callers hc
      rw [mine, call] at found
      cases found
      exact .inr ⟨p.inserted, by simp [mine]⟩
    · exact .inl (List.mem_filter.2 ⟨hc, decide_eq_true mine⟩)
  | _ => exact .inl hc

/-! ## Who can go on -/

theorem internal_of_loopStep? (next : p.loopStep? false = some step) :
    step.internal = true ∧ ∀ i other panics, step ≠ .conclude i other panics := by
  unfold loopStep? at next
  split at next <;> cases next <;> exact ⟨rfl, by simp⟩

theorem internal_of_workerStep? (next : p.workerStep? i = some step) :
    step.internal = true ∧ ∀ i other panics, step ≠ .conclude i other panics := by
  unfold workerStep? at next
  split at next <;> cases next <;> exact ⟨rfl, by simp⟩

/-- A loop that has ended left a closed queue. -/
theorem Awake.alive (h : p.Awake) : p.loop.ended = false := by
  cases loop : p.loop with
  | stopped =>
    have closed := (h.ended loop).1
    rw [h.unclosed] at closed
    cases closed
  | dead t => exact absurd loop (h.whole.loop t).2.2
  | _ => rfl

/-- **A pool that stands still has no job.** -/
theorem Awake.jobs_of_still (h : p.Awake) (still : p.Still) : p.jobs = 0 := by
  obtain exited | ⟨-, none⟩ := still.exited_or h.sound h.started h.running
  · have ended := (exited_iff.1 exited).1
    rw [h.alive] at ended
    cases ended
  · exact none

/-- A call that waits finds room in an empty queue. -/
theorem Awake.isSome_insert (h : p.Awake) (none : p.jobs = 0) {c : Waiting J}
    (hc : c ∈ p.waiting) : (p.step? (.insert c.caller)).isSome = true := by
  have call : p.waitingOf? c.caller = some c := find?_of_mem Waiting.caller h.callers hc
  have empty : p.queue.length = 0 := by
    simp only [jobs, Nat.add_eq_zero_iff] at none
    exact none.1.1.1.1
  have room : p.isFull = false := by
    rw [isFull, empty]
    exact decide_eq_false h.room.not_ge
  simp [step?, insertWaiting, call, h.unrefused c hc, h.unclosed, room]

/-- **While there is a job, or a call that waits, the pool goes on.** -/
theorem Awake.advances (h : p.Awake) (left : ¬p.AtRest) (outcome : Outcome) :
    p.Advances outcome := by
  by_contra stuck
  have blocked : ∀ step, step.internal = true →
      (∀ i other panics, step ≠ .conclude i other panics) → p.step? step = none := by
    intro step internal other
    by_contra possible
    exact stuck ⟨step, internal, fun i out panics same => absurd same (other i out panics),
      Option.isSome_iff_ne_none.2 possible⟩
  have still : p.Still := {
    loop := fun step next =>
      have ⟨internal, other⟩ := internal_of_loopStep? next
      blocked step internal other
    workers := fun i step next =>
      have ⟨internal, other⟩ := internal_of_workerStep? next
      blocked step internal other
    idle := fun i => by
      by_contra executing
      obtain ⟨t, executing⟩ := Option.ne_none_iff_exists'.1 executing
      have ends := conclude_isSome outcome executing (h.free i)
      exact stuck ⟨.conclude i outcome false, rfl, by simp, ends⟩ }
  have none := h.jobs_of_still still
  have waiting : p.waiting = [] := by
    refine List.eq_nil_iff_forall_not_mem.2 fun c hc => ?_
    have possible := h.isSome_insert none hc
    rw [blocked (.insert c.caller) rfl (by simp)] at possible
    cases possible
  exact left (atRest_iff.2 (by rw [waiting, none]; rfl))

/-! ## At rest -/

theorem Awake.receiving (h : p.Awake) (rest : p.AtRest) : p.loop = .receiving := by
  have alive := h.alive
  have empty := rest.loop
  cases loop : p.loop with
  | receiving => rfl
  | unborn => exact absurd loop (h.started.loop h.running)
  | stopped | dead => simp [loop, Loop.ended] at alive
  | _ => simp [loop, Loop.undecided, Loop.leftover] at empty

/-- **A pool at rest that does not go on has all its workers waiting for a job.** -/
theorem Awake.listening (h : p.Awake) (rest : p.AtRest)
    (stuck : ∀ i, p.step? (.announce i) = none) {w : Worker J} (hw : w ∈ p.workers) :
    w = { phase := .listening, ready := true, slot := none } := by
  obtain ⟨i, here⟩ := List.mem_iff_getElem?.1 hw
  have held : p.handlesHeld = true := by simp [handlesHeld, h.running, h.alive]
  have handing : p.handingTo i = false := handingTo_eq_false (by simp [h.receiving rest]) i
  have fits := h.sound.fits i w here
  have slot := rest.slots w hw
  have idle := rest.workers w hw
  have born := h.started.workers i w here (.inl h.running)
  have stops := h.sound.stopped i w here
  have lives := h.whole.workers i w here
  obtain ⟨phase, ready, rfl⟩ : ∃ phase ready, w = { phase := phase, ready := ready } :=
    ⟨w.phase, w.ready, by rw [← slot]⟩
  rw [handing] at fits
  cases phase with
  | listening =>
    cases ready with
    | true => rfl
    | false => simp [Worker.Fits] at fits
  | announcing =>
    obtain ⟨rfl, -, -⟩ := fits
    have possible := stuck i
    simp [step?, Pool.announce, here, held] at possible
  | unborn => exact absurd rfl born
  | executing t => exact absurd rfl (idle t).1
  | settling t => exact absurd rfl (idle t).2
  | stopped => rw [stops rfl] at held; cases held
  | dead t => exact absurd rfl (lives t)

/-! ## Runs -/

namespace Play

variable {steps rest : List (Step J)} {s t : Play J}

theorem awake (hp : p.Fresh) (room : 0 < p.capacity) (hs : Play.run? { pool := p } steps = some s)
    (running : s.pool.lifecycle = .running) (unclosed : s.pool.closed = false)
    (calm : ∀ step ∈ steps, step.panics = false) (modest : ∀ step ∈ steps, step.modest = true) :
    s.pool.Awake where
  sound := hp.sound.of_run hs
  started := started hp hs
  whole := (whole hp hs calm).1
  ended := ended_of_stopped hp hs
  running := running
  unclosed := unclosed
  room := capacity_eq hs ▸ room
  callers := waiting_callers hp hs
  unrefused := waiting_unrefused hp hs unclosed
  free := fun i => by
    refine run_induction (motive := fun steps s => (∀ step ∈ steps, step.modest = true) →
      s.pool.busy (.worker i) = false) ?_ ?_ hs modest
    · intro _
      simp [busy, hp.waiting, hp.shutdowns, hp.lifecycle]
    · intro steps s step q es hs ih hm modest
      simp only [List.mem_append, List.mem_singleton] at modest
      exact hm.free_next (modest step (.inr rfl)) (ih fun step h => modest step (.inl h))

/-- A pool that runs and is open stays so by its own steps. The calls that wait do so until their jobs
enter the queue. -/
theorem own_run (running : s.pool.lifecycle = .running) (unclosed : s.pool.closed = false)
    (callers : (s.pool.waiting.map (·.caller)).Nodup) (own : ∀ step ∈ rest, step.own = true)
    (h : s.run? rest = some t) :
    t.pool.lifecycle = .running ∧ t.pool.closed = false ∧
      ∃ new, t.history = new ++ s.history ∧ ∀ c ∈ s.pool.waiting,
        c ∈ t.pool.waiting ∨ ∃ number, .accepted c.caller ⟨number, c.job⟩ ∈ new := by
  induction rest generalizing s with
  | nil =>
    cases h
    exact ⟨running, unclosed, [], rfl, fun c hc => .inl hc⟩
  | cons step rest ih =>
    simp only [run?] at h
    split at h
    · next u hu =>
      obtain ⟨q, es, hm, rfl⟩ := moves_of_step? hu
      obtain ⟨mine, others⟩ := List.forall_mem_cons.1 own
      obtain ⟨still, unclosed, new, history, waits⟩ := ih (hm.running_next running)
        (hm.unclosed_next mine unclosed) (hm.callers_nodup callers) others h
      refine ⟨still, unclosed, new ++ es.reverse, by simp [history, record], fun c hc => ?_⟩
      obtain here | ⟨number, now⟩ := hm.insert_or_waits mine callers hc
      · obtain stays | ⟨number, later⟩ := waits c here
        · exact .inl stays
        · exact .inr ⟨number, List.mem_append_left _ later⟩
      · exact .inr ⟨number, List.mem_append_right _ (List.mem_reverse.2 now)⟩
    · cases h

/-- Of its own steps only the offers bring in anything. -/
theorem sum_price_of_own (own : ∀ step ∈ rest, step.own = true) :
    (rest.map (·.price 0)).sum = 8 * rest.countP Step.spawns := by
  induction rest with
  | nil => rfl
  | cons step rest ih =>
    obtain ⟨mine, others⟩ := List.forall_mem_cons.1 own
    have count : (step :: rest).countP Step.spawns =
        rest.countP Step.spawns + step.spawns.toNat := by
      cases spawns : step.spawns <;> simp [spawns]
    rw [List.map_cons, List.sum_cons, Step.price_of_own mine, ih others, count]
    omega

/-- **By its own steps a pool uses up what it has to do, and what the offers bring in.** -/
theorem length_add_toil_le (tidy : s.pool.Tidy) (own : ∀ step ∈ rest, step.own = true)
    (h : s.run? rest = some t) :
    rest.length + t.pool.toil 0 ≤ s.pool.toil 0 + 8 * rest.countP Step.spawns := by
  rw [← sum_price_of_own own]
  exact length_add_toil_le_price tidy h

/-! ## Runs without an end -/

/-- The second job entered the queue by a call that the work function made while it was at work on the
first one. -/
def Spawned (plays : Nat → Play J) (moves : Nat → Step J) (x y : Ticket J) : Prop :=
  ∃ n, (plays n).CallsFor (moves n) x ∧ y ∈ (plays (n + 1)).accepted ∧ y ∉ (plays n).accepted

variable {plays : Nat → Play J} {moves : Nat → Step J}

theorem Endless.run_from (h : s.Endless plays moves)
    (hs : Play.run? { pool := p } steps = some s) (n : Nat) :
    Play.run? { pool := p } (steps ++ (List.range n).map moves) = some (plays n) := by
  have run := h.run 0 n
  simp only [Nat.zero_add] at run
  rw [run?_append, hs, ← h.start]
  exact run

/-- At some time the last call that waits has returned that ever does. -/
theorem Endless.exists_uninserted (h : s.Endless plays moves) (hp : p.Fresh)
    (hs : Play.run? { pool := p } steps = some s) (own : ∀ n, (moves n).own = true) :
    ∃ first, ∀ n, first ≤ n → ∀ caller, moves n ≠ .insert caller := by
  have falls : ∀ n, (plays (n + 1)).pool.waiting.length + (moves n).returns.toNat =
      (plays n).pool.waiting.length := by
    intro n
    obtain ⟨q, es, hm, next⟩ := moves_of_step? (h.next n)
    have law := hm.length_waiting (waiting_callers hp (h.run_from hs n))
    rw [Step.enqueues_of_own (own n)] at law
    rw [next]
    exact law
  -- The number of calls that wait never rises, so from its minimum on it stays the same.
  let first := Function.argmin fun n => (plays n).pool.waiting.length
  have least : ∀ n, (plays first).pool.waiting.length ≤ (plays n).pool.waiting.length :=
    fun n => Function.argmin_le (fun n => (plays n).pool.waiting.length) n
  have below : ∀ n, first ≤ n →
      (plays n).pool.waiting.length ≤ (plays first).pool.waiting.length := by
    intro n late
    induction n, late using Nat.le_induction with
    | base => exact le_rfl
    | succ n _ ih =>
      have now := falls n
      omega
  refine ⟨first, fun n late caller inserts => ?_⟩
  have now := falls n
  rw [inserts] at now
  have here := below n late
  have next := least (n + 1)
  simp only [Step.returns, Bool.toNat_true] at now
  omega

/-- From then on every job that enters the queue descends from one that was there before. -/
theorem Endless.descends (h : s.Endless plays moves) (hp : p.Fresh)
    (hs : Play.run? { pool := p } steps = some s) (own : ∀ n, (moves n).own = true) {first : Nat}
    (uninserted : ∀ n, first ≤ n → ∀ caller, moves n ≠ .insert caller) {n : Nat}
    (late : first ≤ n) : ∀ y ∈ (plays n).accepted, ∃ x ∈ (plays first).accepted,
      Relation.ReflTransGen (Spawned plays moves) x y := by
  induction n, late using Nat.le_induction with
  | base => exact fun y hy => ⟨y, hy, .refl⟩
  | succ n late ih =>
    intro y hy
    by_cases old : y ∈ (plays n).accepted
    · exact ih y old
    · have inserts : (moves n).inserts = true := by
        by_contra unchanged
        rw [accepted_eq_of_inserts (h.next n) (by simpa using unchanged)] at hy
        exact old hy
      have nested : (moves n).nested = true := by
        have mine := own n
        cases hm : moves n with
        | insert caller => exact absurd hm (uninserted n late caller)
        | offer caller => cases caller <;> simp_all [Step.own, Step.internal, Step.spawns, Step.nested]
        | _ => simp [hm, Step.inserts] at inserts
      obtain ⟨x, calls⟩ := callsFor_of_nested (h.next n) nested
      obtain ⟨i, works, -⟩ := id calls
      obtain ⟨root, hroot, descends⟩ := ih x (accepted_of_executing? hp (h.run_from hs n) works)
      exact ⟨root, hroot, descends.tail ⟨n, calls, hy, old⟩⟩

/-- **A pool does not go on for ever by itself**, if the work function makes finitely many calls for each
job, and each job spawns finitely many others, by itself or through others. -/
theorem not_endless (hp : p.Fresh) (hs : Play.run? { pool := p } steps = some s)
    (own : ∀ n, (moves n).own = true)
    (few : ∀ x, {n | (plays n).CallsFor (moves n) x}.Finite)
    (trees : ∀ x, {y | Relation.TransGen (Spawned plays moves) x y}.Finite) :
    ¬s.Endless plays moves := by
  intro h
  obtain ⟨first, uninserted⟩ := h.exists_uninserted hp hs own
  -- All jobs come from finitely many, so finitely many calls are made for them.
  have family : {y | ∃ x ∈ (plays first).accepted,
      Relation.ReflTransGen (Spawned plays moves) x y}.Finite := by
    refine ((plays first).accepted.finite_toSet.biUnion fun x _ =>
      (trees x).insert x).subset ?_
    rintro y ⟨x, hx, descends⟩
    exact Set.mem_biUnion hx (Relation.reflTransGen_iff_eq_or_transGen.1 descends)
  have offers : {n | first ≤ n ∧ (moves n).spawns = true}.Finite := by
    refine (family.biUnion fun x _ => few x).subset ?_
    rintro n ⟨late, spawns⟩
    have nested : (moves n).nested = true := by
      unfold Step.spawns at spawns
      split at spawns
      · next same => rw [same]; rfl
      · cases spawns
    obtain ⟨x, calls⟩ := callsFor_of_nested (h.next n) nested
    obtain ⟨i, works, -⟩ := id calls
    exact Set.mem_biUnion
      (h.descends hp hs own uninserted late x (accepted_of_executing? hp (h.run_from hs n) works))
      calls
  obtain ⟨last, bound⟩ := offers.bddAbove
  -- After the last offer every step uses up what there is to do.
  have tidy : (plays (first + last + 1)).pool.Tidy :=
    ⟨hp.sound.of_run (h.run_from hs _), shutdowns_callers hp (h.run_from hs _)⟩
  have unspawned : ∀ j, (moves (first + last + 1 + j)).spawns = false := by
    intro j
    by_contra spawns
    have := bound (show first + last + 1 + j ∈ {n | first ≤ n ∧ (moves n).spawns = true} from
      ⟨by omega, by simpa using spawns⟩)
    omega
  have run := h.run (first + last + 1) ((plays (first + last + 1)).pool.toil 0 + 1)
  have spent := length_add_toil_le tidy (by simp [own]) run
  have none := countP_moves_eq_zero unspawned ((plays (first + last + 1)).pool.toil 0 + 1)
  rw [none, List.length_map, List.length_range] at spent
  omega

/-! ## What follows -/

/-- A pool that goes on as long as it can by internal steps comes to a place where it cannot. -/
theorem exists_stuck (tidy : s.pool.Tidy) : ∃ rest t, s.run? rest = some t ∧
    (∀ step ∈ rest, step.internal = true) ∧
      ∀ step, step.internal = true → t.pool.step? step = none := by
  generalize left : s.pool.toil 0 = n
  induction n using Nat.strong_induction_on generalizing s with
  | _ n ih =>
    by_cases stuck : ∀ step : Step J, step.internal = true → s.pool.step? step = none
    · exact ⟨[], s, rfl, by simp, stuck⟩
    · push Not at stuck
      obtain ⟨step, internal, possible⟩ := stuck
      have moved : (s.step? step).isSome = true :=
        isSome_step?.trans (Option.isSome_iff_ne_none.2 possible)
      obtain ⟨u, hu⟩ := Option.isSome_iff_exists.1 moved
      have own : step.own = true := by simp [Step.own, internal]
      have unspawned : step.spawns = false := by cases step <;> first | rfl | cases internal
      obtain ⟨new, -, spent⟩ := toil_next 0 tidy hu
      rw [Step.price_of_own own, unspawned] at spent
      obtain ⟨rest, t, h, others, stuck⟩ := ih _ (by simp at spent; omega) (tidy_next tidy hu) rfl
      refine ⟨step :: rest, t, by simp only [run?, hu, h], ?_, stuck⟩
      exact List.forall_mem_cons.2 ⟨internal, others⟩

/-- A pool that has come to rest since some time before. -/
structure Rested (s t : Play J) : Prop where
  /-- No call waits. The jobs of those that did have entered the queue. -/
  waiting : t.pool.waiting = []
  inserted : ∃ new, t.history = new ++ s.history ∧
    ∀ c ∈ s.pool.waiting, ∃ number, .accepted c.caller ⟨number, c.job⟩ ∈ new
  /-- All jobs that entered the queue are done, and nothing is in flight. -/
  queue : t.pool.queue = []
  done : (t.began.map (·.2)).Perm t.accepted ∧ (t.ended.map (·.2)).Perm t.accepted
  inFlight : t.pool.inFlight = 0
  /-- The loop and all workers wait for a job. -/
  loop : t.pool.loop = .receiving
  workers : ∀ w ∈ t.pool.workers, w = { phase := .listening, ready := true, slot := none }
  /-- A call that waits until nothing is in flight returns. -/
  idle : ∀ caller, t.pool.mayCall caller = true → (t.pool.step? (.idle caller)).isSome = true

/-- A pool that runs and is open comes to rest by itself. -/
structure Quiesces (s : Play J) : Prop where
  /-- While there is a job, or a call that waits, the pool goes on, however a work function ends. -/
  progress : ¬s.pool.AtRest → ∀ outcome, s.pool.Advances outcome
  /-- The steps that it makes by itself are limited by the offers among them. -/
  bounded : ∀ rest t, s.run? rest = some t → (∀ step ∈ rest, step.own = true) →
    rest.length + t.pool.toil 0 ≤ s.pool.toil 0 + 8 * rest.countP Step.spawns
  /-- It does not go on for ever if the work function makes finitely many calls for each job, and each
  job spawns finitely many others. -/
  finite : ∀ plays moves, (∀ n, (moves n).own = true) →
    (∀ x, {n | (plays n).CallsFor (moves n) x}.Finite) →
      (∀ x, {y | Relation.TransGen (Spawned plays moves) x y}.Finite) → ¬s.Endless plays moves
  /-- When it does not go on, it has come to rest. -/
  rests : ∀ rest t, s.run? rest = some t → (∀ step ∈ rest, step.own = true) →
    (∀ step, step.internal = true → t.pool.step? step = none) → s.Rested t
  /-- And it comes to that. -/
  reaches : ∃ rest t, s.run? rest = some t ∧ (∀ step ∈ rest, step.own = true) ∧
    ∀ step, step.internal = true → t.pool.step? step = none

theorem rested (hp : p.Fresh) (room : 0 < p.capacity)
    (hs : Play.run? { pool := p } steps = some s) (awake : s.pool.Awake)
    (calm : ∀ step ∈ steps, step.panics = false) (modest : ∀ step ∈ steps, step.modest = true)
    (h : s.run? rest = some t) (own : ∀ step ∈ rest, step.own = true)
    (stuck : ∀ step, step.internal = true → t.pool.step? step = none) : s.Rested t := by
  have whole : Play.run? { pool := p } (steps ++ rest) = some t := by
    rw [run?_append, hs]
    exact h
  obtain ⟨running, unclosed, new, history, waits⟩ :=
    own_run awake.running awake.unclosed awake.callers own h
  have calm' : ∀ step ∈ steps ++ rest, step.panics = false := fun step mem =>
    (List.mem_append.1 mem).elim (calm step) fun mine => Step.panics_of_own (own step mine)
  have later : t.pool.Awake := Play.awake hp room whole running unclosed calm' fun step mem =>
    (List.mem_append.1 mem).elim (modest step) fun mine => Step.modest_of_own (own step mine)
  have rest : t.pool.AtRest := by
    by_contra left
    obtain ⟨step, internal, -, possible⟩ := later.advances left .done
    rw [stuck step internal] at possible
    cases possible
  have none := atRest_iff.1 rest
  have inFlight : t.pool.inFlight = 0 := by
    rw [inFlight_eq hp whole, none, lost_eq_nil calm' whole]
    rfl
  obtain ⟨queue, began, ended⟩ := all_done hp whole calm' (Nat.add_eq_zero_iff.1 none).2
  exact {
    waiting := rest.waiting
    inserted := ⟨new, history, fun c hc => (waits c hc).resolve_left (by simp [rest.waiting])⟩
    queue := queue
    done := ⟨began, ended⟩
    inFlight := inFlight
    loop := later.receiving rest
    workers := fun w hw => later.listening rest (fun i => stuck (.announce i) rfl) hw
    idle := fun caller free => by simp [Pool.step?, Pool.idle, free, inFlight] }

/-- **A pool that runs and is open comes to rest by itself**, if work functions make no call but
offers, and no report kills a thread. -/
theorem quiesces {c : PoolConfig} {processors : Nat} (hp : create c processors = .ok p)
    (hs : Play.run? { pool := p } steps = some s)
    (started : ∃ caller, .startEnded caller (.ok ()) ∈ s.history) (unclosed : s.pool.closed = false)
    (calm : ∀ step ∈ steps, step.panics = false) (modest : ∀ step ∈ steps, step.modest = true) :
    s.Quiesces := by
  have fresh := Fresh.of_create hp
  have room := (create_pos hp).2
  have running : s.pool.lifecycle = .running := started.elim fun _ => running_of_started hs
  have awake := Play.awake fresh room hs running unclosed calm modest
  have tidy : s.pool.Tidy := ⟨awake.sound, shutdowns_callers fresh hs⟩
  obtain ⟨rest, t, h, internal, stuck⟩ := exists_stuck tidy
  exact {
    progress := awake.advances
    bounded := fun rest t h own => length_add_toil_le tidy own h
    finite := fun plays moves own few trees => not_endless fresh hs own few trees
    rests := fun rest t h own => rested fresh room hs awake calm modest h own
    reaches := ⟨rest, t, h, fun step mem => by simp [Step.own, internal step mem], stuck⟩ }

/-- A run of a pool of one worker: job 10, which is at work, has offered job 20, and job 30 waits for
room behind it. -/
def spawningRun : List (Step Nat) :=
  [.start (.client 0), .spawn false, .spawn false, .announce 0, .enqueue (.client 0) 10,
    .insert (.client 0), .take, .claim, .hand, .receive 0, .offer (.worker 0) 20,
    .enqueue (.client 1) 30]

/-- The steps up to where all threads wait for a job. Job 20 panics. -/
def restingRun : List (Step Nat) :=
  [.conclude 0 .done false, .complete 0, .announce 0, .take, .insert (.client 1), .claim, .hand,
    .receive 0, .conclude 0 (.panicked none) false, .complete 0, .announce 0, .take, .claim, .hand,
    .receive 0, .conclude 0 .done false, .complete 0, .announce 0]

theorem quiesces_spawningRun :
    ∃ s t, Play.run? { pool := narrowPool } spawningRun = some s ∧ s.run? restingRun = some t ∧
      ¬s.pool.AtRest ∧ s.Quiesces ∧ t.pool.inFlight = 0 ∧ t.Quiesces := by
  have made : create { queueCapacity := 1, workerCount := some 1, threadName := "a" } 1 =
    .ok narrowPool := rfl
  have spawning : Play.run? { pool := narrowPool } spawningRun = some _ := rfl
  have resting : Play.run? { pool := narrowPool } (spawningRun ++ restingRun) = some _ := rfl
  refine ⟨_, _, spawning, rfl, ?_, ?_, rfl, ?_⟩
  · rintro ⟨waiting, -⟩
    cases waiting
  · exact quiesces made spawning ⟨.client 0, by simp [record]⟩ rfl (by decide) (by decide)
  · exact quiesces made resting ⟨.client 0, by simp [record]⟩ rfl (by decide) (by decide)

end Play

end Pool

end BatchPool
