import BatchPool.Proofs.Pool.Moves

/-!
# The handshake between the loop and the workers

A job goes to a worker by a handshake: the worker puts out its token, the loop takes it, puts the
job into the worker's slot, and the worker takes the job from there.

* `Worker.Fits`: a worker that waits for a job has exactly one way to get it, and no other worker
  has any.
* `Pool.Sound`: that, and that threads are started in order: what holds of every pool that a run
  leads to (`Sound.of_run`).
* `Worker.Changes`: what a step can do to a worker, and `Sound.change`: no step does anything else.
* `Pool.Fresh`: nothing has happened yet, as in a pool that was just made (`Fresh.of_create`).
-/

namespace BatchPool

namespace Pool

variable {J : Type}

/-! ## The pools that a run leads to -/

/-- The loop has taken the token of a worker and has still to give it the job. -/
def handingTo (p : Pool J) (i : Nat) : Bool :=
  match p.loop with
  | .handing _ => p.cursor = i
  | _ => false

/-- A worker that waits for a job has its token out, the loop has taken the token, or the slot is
filled: exactly one of the three. No other worker has a job coming; only the token of a stopped one
may be left. -/
def Worker.Fits (w : Worker J) (handing : Bool) : Prop :=
  match w.phase with
  | .listening => w.ready.toNat + handing.toNat + w.slot.toList.length = 1
  | .stopped => w.slot = none ∧ handing = false
  | _ => w.ready = false ∧ w.slot = none ∧ handing = false

/-- The number of the thread that is started next, while not all are started. -/
def Lifecycle.next? : Lifecycle → Option Nat
  | .stopped => some 0
  | .starting _ n => some n
  | _ => none

/-- What holds of every pool that a run leads to. -/
structure Sound (p : Pool J) : Prop where
  cursor : p.cursor < p.workerCount
  newborn : ∀ n, p.lifecycle.next? = some n → ∀ (i : Nat) (w : Worker J), n ≤ i →
    p.workers[i]? = some w → w = {}
  unstarted : p.lifecycle ≠ .running → p.loop = .unborn
  stopped : ∀ (i : Nat) (w : Worker J), p.workers[i]? = some w → w.phase = .stopped →
    p.handlesHeld = false
  fits : ∀ (i : Nat) (w : Worker J), p.workers[i]? = some w → w.Fits (p.handingTo i)

variable {p q : Pool J} {step : Step J} {events : List (Event J)} {i : Nat} {w w' : Worker J}

/-! ## Small facts -/

/-- No worker comes or goes. -/
theorem Moves.workerCount_eq (h : Moves p step q events) : q.workerCount = p.workerCount := by
  cases h with
  | spawnWorker | claim | hand | announce | announceStops | receive | receiveStops | conclude
  | concludeReported | concludeFatal | complete => simp [workerCount]
  | _ => rfl

/-- The pool keeps its name. -/
theorem Moves.name_eq (h : Moves p step q events) : q.name = p.name := by
  cases h <;> rfl

/-- The queue keeps its room. -/
theorem Moves.capacity_eq (h : Moves p step q events) : q.capacity = p.capacity := by
  cases h <;> rfl

/-- The worker that changed is in its place. -/
theorem getElem?_set_here {l : List (Worker J)} (here : l[i]? = some w) (w' : Worker J) :
    (l.set i w')[i]? = some w' :=
  List.getElem?_set_self (List.getElem?_eq_some_iff.1 here).1

/-- What holds of all workers after one of them changed. -/
theorem forall_set {P : Nat → Worker J → Prop} {l : List (Worker J)} (here : l[i]? = some w)
    (self : P i w') (others : ∀ (j : Nat) (v : Worker J), j ≠ i → l[j]? = some v → P j v) :
    ∀ (j : Nat) (v : Worker J), (l.set i w')[j]? = some v → P j v := by
  intro j v hv
  obtain ⟨hi, -⟩ := List.getElem?_eq_some_iff.1 here
  by_cases hj : i = j
  · subst hj
    rw [List.getElem?_set_self hi] at hv
    cases hv
    exact self
  · rw [List.getElem?_set_ne hj] at hv
    exact others j v (Ne.symm hj) hv

theorem handingTo_eq_false (h : ∀ t, p.loop ≠ .handing t) (i : Nat) : p.handingTo i = false := by
  unfold handingTo
  split
  · next t ht => exact absurd ht (h t)
  · rfl

/-- A worker that the loop is handing a job to waits for it. -/
theorem Worker.Fits.listening (h : w.Fits true) :
    w.phase = .listening ∧ w.ready = false ∧ w.slot = none := by
  unfold Worker.Fits at h
  split at h
  · next hp =>
    refine ⟨hp, ?_⟩
    cases hr : w.ready <;> cases hs : w.slot <;> simp [hr, hs] at h ⊢
  · cases h.2
  · cases h.2.2

/-- A worker with a job in its slot waits for it. -/
theorem Worker.Fits.of_slot {t : Ticket J} {b : Bool} (h : w.Fits b) (slot : w.slot = some t) :
    w.phase = .listening ∧ w.ready = false ∧ b = false := by
  unfold Worker.Fits at h
  split at h
  · next hp =>
    refine ⟨hp, ?_⟩
    cases hr : w.ready <;> cases b <;> simp [hr, slot] at h ⊢
  · rw [h.1] at slot; cases slot
  · rw [h.2.1] at slot; cases slot

/-- A worker that neither waits nor has stopped has no job coming. -/
theorem Worker.Fits.of_busy {b : Bool} (h : w.Fits b) (waits : w.phase ≠ .listening)
    (works : w.phase ≠ .stopped) : w.ready = false ∧ w.slot = none ∧ b = false := by
  unfold Worker.Fits at h
  split at h
  · exact absurd ‹_› waits
  · exact absurd ‹_› works
  · exact h

theorem Worker.Fits.not_gone (h : w.Fits true) : w.gone = false := by
  simp [Worker.gone, h.listening]

/-- The worker whose token the loop has taken waits for the job. -/
theorem Sound.fits_of_handing {t : Ticket J} (h : p.Sound) (loop : p.loop = .handing t)
    (turn : p.turn? = some w) : w.Fits true := by
  have fits := h.fits _ _ turn
  simpa only [handingTo, loop, decide_true] using fits

theorem Sound.running (h : p.Sound) (born : p.loop ≠ .unborn) : p.lifecycle = .running :=
  Decidable.of_not_not fun hl => born (h.unstarted hl)

theorem Sound.next?_eq_none (h : p.Sound) (born : p.loop ≠ .unborn) :
    p.lifecycle.next? = none := by
  rw [h.running born]
  rfl

/-- While the loop is at work, the workers can hear from it. -/
theorem Sound.held (h : p.Sound) (born : p.loop ≠ .unborn) (alive : p.loop.ended = false) :
    p.handlesHeld = true := by
  simp [handlesHeld, h.running born, alive]

theorem Sound.not_handing (h : p.Sound) (unheld : p.handlesHeld = false) (t : Ticket J) :
    p.loop ≠ .handing t := by
  intro loop
  rw [h.held (by simp [loop]) (by simp [loop, Loop.ended])] at unheld
  cases unheld

/-- A worker whose token is out waits for a job, as long as the loop is at work. -/
theorem Sound.listening_of_ready (h : p.Sound) (here : p.workers[i]? = some w)
    (ready : w.ready = true) (held : p.handlesHeld = true) : w.phase = .listening := by
  refine Classical.byContradiction fun waits => ?_
  have works : w.phase ≠ .stopped := fun hs => by rw [h.stopped i w here hs] at held; cases held
  rw [((h.fits i w here).of_busy waits works).1] at ready
  cases ready

/-! ## Steps -/

theorem Sound.cursor_next (h : p.Sound) (hm : Moves p step q events) :
    q.cursor < q.workerCount := by
  have hpos : 0 < p.workerCount := Nat.zero_lt_of_lt h.cursor
  rw [hm.workerCount_eq]
  cases hm with
  | hand | settle => exact Nat.mod_lt _ hpos
  | _ => exact h.cursor

/-- A worker that was started is none of those that are still to be started. -/
theorem Sound.newborn_set (h : p.Sound) (here : p.workers[i]? = some w) (born : w.phase ≠ .unborn) :
    ∀ n, p.lifecycle.next? = some n → ∀ (j : Nat) (v : Worker J), n ≤ j →
      (p.workers.set i w')[j]? = some v → v = {} := by
  intro n hn j v hj hv
  refine forall_set (P := fun j v => n ≤ j → v = {}) here (fun hi => ?_)
    (fun k u _ hu hk => h.newborn n hn k u hk hu) j v hv hj
  rw [h.newborn n hn i w hi here] at born
  exact absurd rfl born

theorem Sound.newborn_next (h : p.Sound) (hm : Moves p step q events) :
    ∀ n, q.lifecycle.next? = some n → ∀ (i : Nat) (w : Worker J), n ≤ i → q.workers[i]? = some w →
      w = {} := by
  cases hm with
  | startFirst _ stopped =>
    intro n hn
    cases hn
    exact h.newborn 0 (by rw [stopped]; rfl)
  | @spawnWorker caller k w starting here =>
    intro n hn j v hj hv
    cases hn
    rw [List.getElem?_set_ne (by omega)] at hv
    exact h.newborn k (by rw [starting]; rfl) j v (by omega) hv
  | spawnFails | spawnLoop => intro n hn; cases hn
  | retire | drop =>
    intro n hn
    by_cases hl : p.lifecycle = Lifecycle.stopped
    · simp [hl, Lifecycle.next?] at hn
    · exact h.newborn n (by simpa [hl] using hn)
  | claim loop | hand loop =>
    intro n hn
    rw [h.next?_eq_none (by simp [loop])] at hn
    cases hn
  | announce here hp | announceStops here hp | receive here hp | receiveStops here hp
  | conclude here hp | concludeReported here hp | concludeFatal here hp | complete here hp =>
    exact h.newborn_set here (by simp [hp])
  | _ => exact h.newborn

theorem Sound.unstarted_next (h : p.Sound) (hm : Moves p step q events) :
    q.lifecycle ≠ .running → q.loop = .unborn := by
  cases hm with
  | startFirst _ lifecycle | spawnFails lifecycle | spawnWorker lifecycle =>
    intro _
    exact h.unstarted (by simp [lifecycle])
  | spawnLoop => intro hl; exact absurd rfl hl
  | retire | drop =>
    intro hl
    refine h.unstarted fun hr => hl ?_
    simp [hr]
  | take loop | stopLoop loop | claim loop | claimGone loop | hand loop | handGone loop
  | discard loop | discardFatal loop | settle loop =>
    intro hl
    exact absurd (h.running (by simp [loop])) hl
  | _ => exact h.unstarted

/-- Once the workers cannot hear from the loop, they never will. -/
theorem Sound.unheld_next (h : p.Sound) (hm : Moves p step q events)
    (unheld : p.handlesHeld = false) : q.handlesHeld = false := by
  cases hm with
  | startFirst _ lifecycle | spawnFails lifecycle | spawnWorker lifecycle | spawnLoop lifecycle =>
    simp [handlesHeld, lifecycle] at unheld
  | retire | drop =>
    by_cases hl : p.lifecycle = Lifecycle.stopped
    · simp [handlesHeld, hl]
    · simpa [handlesHeld, hl] using unheld
  | take loop | stopLoop loop | claim loop | claimGone loop | hand loop | handGone loop
  | discard loop | discardFatal loop | settle loop =>
    rw [h.held (by simp [loop]) (by simp [loop, Loop.ended])] at unheld
    cases unheld
  | _ => exact unheld

theorem Sound.stopped_next (h : p.Sound) (hm : Moves p step q events) :
    ∀ (i : Nat) (w : Worker J), q.workers[i]? = some w → w.phase = .stopped →
      q.handlesHeld = false := by
  have keep : ∀ (i : Nat) (w : Worker J), p.workers[i]? = some w → w.phase = .stopped →
      q.handlesHeld = false :=
    fun i w hw hs => h.unheld_next hm (h.stopped i w hw hs)
  cases hm with
  | spawnWorker _ here | announce here | receive here | conclude here | concludeReported here
  | concludeFatal here | complete here =>
    exact forall_set here (by simp) fun j v _ => keep j v
  | claim _ here | hand _ here =>
    exact forall_set here (fun hs => keep _ _ here hs) fun j v _ => keep j v
  | announceStops here _ unheld | receiveStops here _ _ unheld =>
    exact forall_set here (fun _ => unheld) fun j v _ => keep j v
  | _ => exact keep

/-- A step of a worker leaves the others as they fit. -/
theorem Sound.fits_set (h : p.Sound) (here : p.workers[i]? = some w)
    (fit : w.Fits (p.handingTo i) → w'.Fits (p.handingTo i)) :
    ∀ (j : Nat) (v : Worker J), (p.workers.set i w')[j]? = some v → v.Fits (p.handingTo j) :=
  forall_set here (fit (h.fits i w here)) fun j v _ => h.fits j v

theorem Sound.fits_next (h : p.Sound) (hm : Moves p step q events) :
    ∀ (i : Nat) (w : Worker J), q.workers[i]? = some w → w.Fits (q.handingTo i) := by
  -- Where the loop is handing over neither before nor after, and no worker changes.
  have still : (∀ t, p.loop ≠ .handing t) → (∀ t, q.loop ≠ .handing t) → q.workers = p.workers →
      ∀ (i : Nat) (w : Worker J), q.workers[i]? = some w → w.Fits (q.handingTo i) := by
    intro hp hq hw i w hi
    have := h.fits i w (hw ▸ hi)
    rw [handingTo_eq_false hp] at this
    rwa [handingTo_eq_false hq]
  cases hm with
  | spawnLoop starting =>
    have hloop := h.unstarted (by simp [starting])
    exact still (by simp [hloop]) (by simp) rfl
  | take loop | stopLoop loop | claimGone loop | discard loop | discardFatal loop | settle loop =>
    exact still (by simp [loop]) (by simp) rfl
  | @claim t w loop turn ready =>
    have held := h.held (by simp [loop]) (by simp [loop, Loop.ended])
    have waits := h.listening_of_ready turn ready held
    refine forall_set turn ?_ fun j v hj hv => ?_
    · have := h.fits _ _ turn
      simp_all [Worker.Fits, handingTo]
    · have := h.fits j v hv
      simpa [handingTo, loop, Ne.symm hj] using this
  | @hand t w loop turn =>
    refine forall_set turn ?_ fun j v hj hv => ?_
    · have := h.fits _ _ turn
      simp only [handingTo, loop, decide_true] at this
      simp [Worker.Fits, handingTo, this.listening]
    · have := h.fits j v hv
      simpa [handingTo, loop, Ne.symm hj] using this
  | @handGone t w loop turn gone =>
    have := h.fits _ _ turn
    simp only [handingTo, loop, decide_true] at this
    rw [this.not_gone] at gone
    cases gone
  | @spawnWorker caller n w starting here =>
    refine h.fits_set here fun hf => ?_
    rw [h.newborn n (by rw [starting]; rfl) n w (Nat.le_refl n) here] at hf ⊢
    simpa [Worker.Fits] using hf
  | announce here hp _ unready =>
    refine h.fits_set here fun hf => ?_
    have := hf.of_busy (by simp [hp]) (by simp [hp])
    simp [Worker.Fits, this]
  | announceStops here hp =>
    refine h.fits_set here fun hf => ?_
    have := hf.of_busy (by simp [hp]) (by simp [hp])
    simp [Worker.Fits, this]
  | receive here hp slot =>
    refine h.fits_set here fun hf => ?_
    have := hf.of_slot slot
    simp [Worker.Fits, this]
  | receiveStops here hp slot unheld =>
    refine h.fits_set here fun _ => ?_
    rw [handingTo_eq_false (h.not_handing unheld)]
    exact ⟨slot, rfl⟩
  | conclude here hp | concludeReported here hp | concludeFatal here hp | complete here hp =>
    refine h.fits_set here fun hf => ?_
    have := hf.of_busy (by simp [hp]) (by simp [hp])
    simp [Worker.Fits, this]
  | _ => exact h.fits

theorem Sound.next (h : p.Sound) (hm : Moves p step q events) : q.Sound where
  cursor := h.cursor_next hm
  newborn := h.newborn_next hm
  unstarted := h.unstarted_next hm
  stopped := h.stopped_next hm
  fits := h.fits_next hm

/-! ## One worker -/

/-- What a step can do to worker number `i`, with what happens. -/
inductive Worker.Changes (i : Nat) (w : Worker J) : Worker J → List (Event J) → Prop where
  | born (phase : w.phase = .unborn) :
    Changes i w { w with phase := .announcing } [.logged (.worker i) (.workerStarted i)]
  | announced (phase : w.phase = .announcing) :
    Changes i w { w with phase := .listening, ready := true } []
  | claimed (phase : w.phase = .listening) (ready : w.ready = true) :
    Changes i w { w with ready := false } []
  | handed {t : Ticket J} (phase : w.phase = .listening) (slot : w.slot = none) :
    Changes i w { w with slot := some t } [.handed i t]
  | began {t : Ticket J} (phase : w.phase = .listening) (slot : w.slot = some t) :
    Changes i w { w with phase := .executing t, slot := none } [.began i t]
  | ended {t : Ticket J} {outcome : Outcome} (phase : w.phase = .executing t) :
    Changes i w { w with phase := .settling t } [.ended i t outcome]
  | reported {t : Ticket J} {outcome : Outcome} {report : Report} (phase : w.phase = .executing t) :
    Changes i w { w with phase := .settling t }
      [.ended i t outcome, .reported (.worker i) report]
  | died {t : Ticket J} {outcome : Outcome} {report : Report} (phase : w.phase = .executing t) :
    Changes i w { w with phase := .dead t }
      [.ended i t outcome, .reported (.worker i) report, .lost (.worker i) t]
  | completed {t : Ticket J} (phase : w.phase = .settling t) :
    Changes i w { w with phase := .announcing } [.completed (.worker i) t]
  | stopped (phase : w.phase = .announcing ∨ w.phase = .listening) (slot : w.slot = none) :
    Changes i w { w with phase := .stopped } [.logged (.worker i) (.workerStopped i)]

/-- The event is about the job of a worker. -/
def Event.atWorker : Event J → Bool
  | .handed _ _ | .began _ _ | .ended _ _ _ | .completed (.worker _) _ | .lost (.worker _) _ => true
  | _ => false

/-- A step changes one worker, or none, and then nothing happens to the job of a worker. -/
theorem Sound.change (h : p.Sound) (hm : Moves p step q events) :
    (q.workers = p.workers ∧ ∀ e ∈ events, e.atWorker = false) ∨
      ∃ i w w', p.workers[i]? = some w ∧ q.workers = p.workers.set i w' ∧
        Worker.Changes i w w' events := by
  cases hm with
  | @spawnWorker caller n w starting here =>
    have hw := h.newborn n (by rw [starting]; rfl) n w (Nat.le_refl n) here
    exact .inr ⟨_, _, _, here, rfl, .born (by rw [hw])⟩
  | claim loop turn ready =>
    have held := h.held (by simp [loop]) (by simp [loop, Loop.ended])
    exact .inr ⟨_, _, _, turn, rfl, .claimed (h.listening_of_ready turn ready held) ready⟩
  | hand loop turn _ empty =>
    have := h.fits _ _ turn
    simp only [handingTo, loop, decide_true] at this
    exact .inr ⟨_, _, _, turn, rfl, .handed this.listening.1 empty⟩
  | announce here hp => exact .inr ⟨_, _, _, here, rfl, .announced hp⟩
  | announceStops here hp =>
    have := (h.fits _ _ here).of_busy (by simp [hp]) (by simp [hp])
    exact .inr ⟨_, _, _, here, rfl, .stopped (.inl hp) this.2.1⟩
  | receive here hp slot => exact .inr ⟨_, _, _, here, rfl, .began hp slot⟩
  | receiveStops here hp slot => exact .inr ⟨_, _, _, here, rfl, .stopped (.inr hp) slot⟩
  | conclude here hp => exact .inr ⟨_, _, _, here, rfl, .ended hp⟩
  | concludeReported here hp => exact .inr ⟨_, _, _, here, rfl, .reported hp⟩
  | concludeFatal here hp => exact .inr ⟨_, _, _, here, rfl, .died hp⟩
  | complete here hp => exact .inr ⟨_, _, _, here, rfl, .completed hp⟩
  | close | shutDown | join =>
    refine .inl ⟨rfl, fun e he => ?_⟩
    split at he <;> simp at he
    simp [he, Event.atWorker]
  | _ => exact .inl ⟨rfl, by simp [Event.atWorker, failStart]⟩

/-! ## Runs -/

/-- Nothing has happened in the pool yet. -/
structure Fresh (p : Pool J) : Prop where
  workers : ∀ (i : Nat) (w : Worker J), p.workers[i]? = some w → w = {}
  workerCount : 0 < p.workerCount
  cursor : p.cursor = 0
  lifecycle : p.lifecycle = .stopped
  loop : p.loop = .unborn
  queue : p.queue = []
  waiting : p.waiting = []
  inserted : p.inserted = 0
  inFlight : p.inFlight = 0
  closed : p.closed = false
  threads : p.threads = []
  shutdowns : p.shutdowns = []
  dropped : p.dropped = false

theorem Fresh.of_create {c : PoolConfig} {processors : Nat} (h : create c processors = .ok p) :
    p.Fresh := by
  obtain ⟨hpos, -⟩ := create_pos h
  unfold create at h
  split at h
  · cases h
  · split at h
    · cases h
    · cases h
      exact {
        workers := fun i w hw => List.eq_of_mem_replicate (List.mem_of_getElem? hw)
        workerCount := hpos
        cursor := rfl, lifecycle := rfl, loop := rfl, queue := rfl, waiting := rfl
        inserted := rfl, inFlight := rfl, closed := rfl, threads := rfl, shutdowns := rfl
        dropped := rfl }

/-- With a worker and room for a job a pool can be made. -/
theorem exists_create {c : PoolConfig} {processors : Nat} (workers : 0 < c.workers processors)
    (room : 0 < c.queueCapacity) : ∃ p : Pool J, create c processors = .ok p :=
  ⟨_, by rw [create, if_neg (by omega), if_neg (by omega)]⟩

theorem workerCount_of_create {c : PoolConfig} {processors : Nat}
    (h : create c processors = .ok p) : p.workerCount = c.workers processors := by
  unfold create at h
  split at h
  · cases h
  · split at h
    · cases h
    · cases h
      exact List.length_replicate

theorem capacity_of_create {c : PoolConfig} {processors : Nat}
    (h : create c processors = .ok p) : p.capacity = c.queueCapacity := by
  unfold create at h
  split at h
  · cases h
  · split at h
    · cases h
    · cases h
      rfl

theorem name_of_create {c : PoolConfig} {processors : Nat}
    (h : create c processors = .ok p) : p.name = c.threadName := by
  unfold create at h
  split at h
  · cases h
  · split at h
    · cases h
    · cases h
      rfl

theorem Fresh.sound (h : p.Fresh) : p.Sound where
  cursor := h.cursor ▸ h.workerCount
  newborn := fun _ _ i w _ => h.workers i w
  unstarted := fun _ => h.loop
  stopped := fun i w hw hs => by rw [h.workers i w hw] at hs; cases hs
  fits := fun i w hw => by rw [h.workers i w hw]; simp [Worker.Fits, handingTo, h.loop]

/-- A run keeps a pool sound. -/
theorem Sound.of_run {steps : List (Step J)} {s : Play J} (h : p.Sound)
    (hs : Play.run? { pool := p } steps = some s) : s.pool.Sound :=
  Play.run_induction (motive := fun _ s => s.pool.Sound) h
    (fun _ _ _ _ _ _ ih hm => ih.next hm) hs

end Pool

end BatchPool
