import BatchPool.Proofs.Pool.Shutdown

/-!
# What a pool leaves behind

When a pool was closed and every thread that was started has ended, only the jobs in its queue are
left in flight. A pool that ran has emptied its queue by then. A pool that never ran has all its jobs
there, and if it cannot be started any more they stay: a call that waits until no job is in flight
never returns.

* `Pool.Deserted`: every thread that was started has ended.
* `Deserted.jobs_eq`: the jobs of such a pool are those in its queue.
* `Lifecycle.isOver`: the pool failed to start, or was shut down before. `Play.kept`: its queue stays as
  it is.
* `Play.Leaves`: all that follows.
* `Play.Stranded`: a job is left in flight for ever, as may be in a pool that cannot be started any more
  (`exists_stranded`).
-/

namespace BatchPool

namespace Pool

variable {J : Type}

/-- Every thread that was started has ended. -/
structure Deserted (p : Pool J) : Prop where
  loop : p.loop = .unborn ∨ p.loop.ended = true
  workers : ∀ w ∈ p.workers, w.phase = .unborn ∨ w.gone = true

/-- The pool does not run, and cannot be started any more. -/
def Lifecycle.isOver : Lifecycle → Bool
  | .failed | .retired => true
  | _ => false

variable {p q : Pool J} {step : Step J} {events : List (Event J)}

instance [DecidableEq J] (p : Pool J) : Decidable p.Deserted :=
  decidable_of_iff ((p.loop = .unborn ∨ p.loop.ended = true) ∧
    ∀ w ∈ p.workers, w.phase = .unborn ∨ w.gone = true)
    ⟨fun h => ⟨h.1, h.2⟩, fun h => ⟨h.loop, h.workers⟩⟩

/-! ## Jobs -/

/-- A worker that has ended, or was not started, has no job. -/
theorem Worker.Fits.empty {w : Worker J} {handing : Bool} (h : w.Fits handing)
    (ended : w.phase = .unborn ∨ w.gone = true) :
    w.slot = none ∧ ∀ t, w.phase ≠ .executing t ∧ w.phase ≠ .settling t := by
  obtain ⟨phase, ready, slot⟩ := w
  cases phase with
  | unborn | dead => exact ⟨h.2.1, fun t => ⟨nofun, nofun⟩⟩
  | stopped => exact ⟨h.1, fun t => ⟨nofun, nofun⟩⟩
  | _ => obtain unborn | gone := ended <;> contradiction

/-- **The jobs of a deserted pool are those in its queue.** -/
theorem Deserted.jobs_eq (h : p.Deserted) (sound : p.Sound) : p.jobs = p.queue.length := by
  have empty : ∀ w ∈ p.workers,
      w.slot = none ∧ ∀ t, w.phase ≠ .executing t ∧ w.phase ≠ .settling t := by
    intro w hw
    obtain ⟨i, here⟩ := List.mem_iff_getElem?.1 hw
    exact (sound.fits i w here).empty (h.workers w hw)
  -- The queue and the calls that wait are left out here.
  have rest : ({ p with waiting := [], queue := [] } : Pool J).AtRest := {
    waiting := rfl
    queue := rfl
    loop := by
      show p.loop.undecided ++ p.loop.leftover = []
      cases loop : p.loop with
      | unborn | stopped | dead => rfl
      | _ => obtain unborn | ended := h.loop <;> simp_all [Loop.ended]
    slots := fun w hw => (empty w hw).1
    workers := fun w hw => (empty w hw).2 }
  have none : 0 + (0 + (p.loop.undecided ++ p.loop.leftover).length + p.slots.length +
    p.executing.length + p.settling.length) = 0 := atRest_iff.1 rest
  unfold jobs
  omega

/-- The threads of a running pool were started, so they have all ended in a deserted one. -/
theorem Deserted.exited (h : p.Deserted) (started : p.Started) (running : p.lifecycle = .running) :
    p.Exited := by
  refine exited_iff.2 ⟨h.loop.resolve_left (started.loop running), fun i w here => ?_⟩
  exact (h.workers w (List.mem_of_getElem? here)).resolve_left
    (started.workers i w here (.inl running))

/-! ## Pools that do not run any more -/

/-- A pool that will not run stays so. -/
theorem Moves.isOver_next (hm : Moves p step q events) (spent : p.lifecycle.isOver = true) :
    q.lifecycle.isOver = true := by
  cases hm with
  | startFirst _ lifecycle | spawnFails lifecycle | spawnWorker lifecycle | spawnLoop lifecycle =>
    rw [lifecycle] at spent
    cases spent
  | retire | drop =>
    show (if _ then _ else _ : Lifecycle).isOver = true
    split
    · rfl
    · exact spent
  | _ => exact spent

theorem Sound.loop_of_isOver (h : p.Sound) (spent : p.lifecycle.isOver = true) : p.loop = .unborn := by
  refine h.unstarted fun running => ?_
  rw [running] at spent
  cases spent

/-- **Nothing enters or leaves the queue of a closed pool that will not run.** -/
theorem Sound.queue_next (h : p.Sound) (hm : Moves p step q events)
    (spent : p.lifecycle.isOver = true) (closed : p.closed = true) : q.queue = p.queue := by
  have loop := h.loop_of_isOver spent
  cases hm with
  | insert _ _ unclosed | offerTaken _ unclosed =>
    rw [unclosed] at closed
    cases closed
  | take receiving =>
    rw [loop] at receiving
    cases receiving
  | _ => rfl

/-! ## Runs -/

namespace Play

variable {steps rest : List (Step J)} {s t : Play J}

/-- No job was assigned to a worker before the loop was started. -/
theorem assigned_of_unborn (hs : Play.run? { pool := p } steps = some s)
    (unborn : s.pool.loop = .unborn) : s.assigned = [] := by
  refine run_induction (motive := fun _ s => s.pool.loop = .unborn → s.assigned = []) ?_ ?_ hs unborn
  · exact fun _ => rfl
  · intro steps s step q es hs ih hm unborn
    rw [assigned, events_next, List.append_eq_nil_iff]
    cases hm with
    | spawnLoop | take | stopLoop | claim | claimGone | hand | handGone | discard | discardFatal
    | settle => cases unborn
    | close | shutDown | join =>
      refine ⟨ih unborn, ?_⟩
      split <;> rfl
    | _ => exact ⟨ih unborn, rfl⟩

/-- A pool runs only if its start has succeeded. -/
theorem started_of_running (hp : p.Fresh) (hs : Play.run? { pool := p } steps = some s)
    (running : s.pool.lifecycle = .running) :
    ∃ caller, .startEnded caller (.ok ()) ∈ s.history := by
  refine run_induction (motive := fun _ s => s.pool.lifecycle = .running →
    ∃ caller, .startEnded caller (.ok ()) ∈ s.history) ?_ ?_ hs running
  · intro running
    rw [hp.lifecycle] at running
    cases running
  · intro steps s step q es hs ih hm running
    have old : s.pool.lifecycle = .running →
        ∃ caller, .startEnded caller (.ok ()) ∈ ({ s with pool := q }.record es).history :=
      fun before => (ih before).imp fun _ h => List.mem_append_right _ h
    cases hm with
    | @spawnLoop caller => exact ⟨caller, by simp [record]⟩
    | startFirst | spawnFails | spawnWorker => cases running
    | retire | drop =>
      have running : (if _ then _ else _ : Lifecycle) = .running := running
      split at running
      · cases running
      · exact old running
    | _ => exact old running

/-- **A pool that will not run keeps its queue.** -/
theorem kept (sound : s.pool.Sound) (spent : s.pool.lifecycle.isOver = true)
    (closed : s.pool.closed = true) (h : s.run? rest = some t) :
    t.pool.queue = s.pool.queue := by
  have kept : t.pool.Sound ∧ t.pool.lifecycle.isOver = true ∧ t.pool.closed = true ∧
      t.pool.queue = s.pool.queue :=
    run_preserves (motive := fun t => t.pool.Sound ∧ t.pool.lifecycle.isOver = true ∧
        t.pool.closed = true ∧ t.pool.queue = s.pool.queue) ⟨sound, spent, closed, rfl⟩
      (fun u step q es before hm => by
        obtain ⟨sound, spent, closed, queue⟩ := before
        exact ⟨sound.next hm, hm.isOver_next spent, hm.closed_next closed,
          (sound.queue_next hm spent closed).trans queue⟩) h
  exact kept.2.2.2

/-- What a closed pool leaves behind when every thread that was started has ended, and no call waits
for room. -/
structure Leaves (s : Play J) : Prop where
  /-- In flight are the jobs in the queue. -/
  inFlight : s.pool.inFlight = s.pool.queue.length
  /-- A call that waits until no job is in flight returns if the queue is empty, and blocks if not. -/
  idle : ∀ caller, s.pool.mayCall caller = true →
    ((s.pool.step? (.idle caller)).isSome = true ↔ s.pool.queue = [])
  /-- If a start succeeded, the queue is empty and all jobs are done. -/
  ran : (∃ caller, .startEnded caller (.ok ()) ∈ s.history) →
    s.pool.queue = [] ∧ (s.began.map (·.2)).Perm s.accepted ∧ (s.ended.map (·.2)).Perm s.accepted
  /-- If none did, no job was begun, and all of them are in the queue. -/
  stayed : (∀ caller, .startEnded caller (.ok ()) ∉ s.history) →
    s.began = [] ∧ s.pool.queue = s.accepted
  /-- If the pool cannot be started any more they stay there, and in flight. -/
  stranded : s.pool.lifecycle.isOver = true → ∀ rest t, s.run? rest = some t →
    t.pool.queue = s.pool.queue ∧ s.pool.queue.length ≤ t.pool.inFlight

/-- **What a closed pool leaves behind.** -/
theorem leaves {c : PoolConfig} {processors : Nat} (hp : create c processors = .ok p)
    (hs : Play.run? { pool := p } steps = some s) (calm : ∀ step ∈ steps, step.panics = false)
    (closed : s.pool.closed = true) (deserted : s.pool.Deserted) (returned : s.pool.waiting = []) :
    s.Leaves := by
  have fresh := Fresh.of_create hp
  have sound := fresh.sound.of_run hs
  have exact : s.pool.inFlight = s.pool.queue.length := by
    rw [inFlight_eq fresh hs, returned, deserted.jobs_eq sound, lost_eq_nil calm hs]
    exact Nat.zero_add _
  exact {
    inFlight := exact
    idle := fun caller free => by
      have possible : (s.pool.step? (.idle caller)).isSome = true ↔ s.pool.inFlight = 0 := by
        simp [Pool.step?, Pool.idle, free]
      rw [possible, exact, List.length_eq_zero_iff]
    ran := fun started => by
      have running := started.elim fun _ => running_of_started hs
      have exited := deserted.exited (Play.started fresh hs) running
      exact all_done fresh hs calm (jobs_eq_zero fresh hs (whole fresh hs calm).1 exited)
    stayed := fun unstarted => by
      have unborn : s.pool.loop = .unborn := sound.unstarted fun running =>
        (started_of_running fresh hs running).elim unstarted
      have unassigned := assigned_of_unborn hs unborn
      have accepted := accepted_eq fresh hs
      rw [unassigned, ahead, unborn] at accepted
      refine ⟨List.eq_nil_iff_forall_not_mem.2 fun x hx => ?_, accepted.symm⟩
      have assigned := handed_subset s (began_subset fresh hs hx)
      rw [unassigned] at assigned
      cases assigned
    stranded := fun spent rest t h => by
      have queue := kept sound spent closed h
      have whole : Play.run? { pool := p } (steps ++ rest) = some t := by
        rw [run?_append, hs]
        exact h
      refine ⟨queue, ?_⟩
      rw [inFlight_eq fresh whole, ← queue, jobs]
      omega }

/-- A job is enqueued, and then the first thread fails to start. -/
def failingRun : List (Step Nat) :=
  [.enqueue (.client 0) 10, .insert (.client 0), .start (.client 0), .spawn true]

/-- A job is enqueued, and then the pool is shut down. -/
def retiringRun : List (Step Nat) :=
  [.enqueue (.client 0) 10, .insert (.client 0), .shutDown (.client 0), .retire (.client 0),
    .collect (.client 0), .finish (.client 0)]

theorem leaves_closingRun :
    ∃ s t, Play.run? { pool := narrowPool } (closingRun ++ drainingRun) = some s ∧ s.Leaves ∧
      s.pool.queue = [] ∧
        Play.run? { pool := narrowPool } failingRun = some t ∧ t.Leaves ∧ t.pool.inFlight = 1 :=
  have made : create { queueCapacity := 1, workerCount := some 1, threadName := "a" } 1 =
    .ok narrowPool := rfl
  have closing : Play.run? { pool := narrowPool } (closingRun ++ drainingRun) = some _ := rfl
  have failing : Play.run? { pool := narrowPool } failingRun = some _ := rfl
  ⟨_, _, closing, leaves made closing (by decide) rfl (by decide) rfl, rfl, failing,
    leaves made failing (by decide) rfl (by decide) rfl, rfl⟩

/-- Nobody waits for room in the closed pool, and no thread is left, but there is a job in flight. No call
that waits until there is none ever returns. -/
structure Stranded (s : Play J) : Prop where
  closed : s.pool.closed = true
  deserted : s.pool.Deserted
  returned : s.pool.waiting = [] ∧ s.pool.shutdowns = []
  inFlight : s.pool.inFlight ≠ 0
  blocked : ∀ rest t, s.run? rest = some t → ∀ caller, t.step? (.idle caller) = none

/-- So it is where a job is in the queue of a pool that cannot be started any more. -/
theorem Stranded.of_isOver {c : PoolConfig} {processors : Nat} (hp : create c processors = .ok p)
    (hs : Play.run? { pool := p } steps = some s) (spent : s.pool.lifecycle.isOver = true)
    (closed : s.pool.closed = true) (deserted : s.pool.Deserted)
    (returned : s.pool.waiting = [] ∧ s.pool.shutdowns = []) (queue : s.pool.queue ≠ []) :
    s.Stranded := by
  have fresh := Fresh.of_create hp
  have stays : ∀ rest t, s.run? rest = some t → t.pool.inFlight ≠ 0 := by
    intro rest t h
    have kept := kept (fresh.sound.of_run hs) spent closed h
    have whole : Play.run? { pool := p } (steps ++ rest) = some t := by
      rw [run?_append, hs]
      exact h
    have positive := List.length_pos_iff.2 queue
    rw [inFlight_eq fresh whole, jobs, kept]
    omega
  exact {
    closed
    deserted
    returned
    inFlight := stays [] s rfl
    blocked := fun rest t h caller => by simp [Play.step?, Pool.step?, Pool.idle, stays rest t h] }

/-- A pool that failed to start, or was shut down before, may have a job in flight for ever. -/
theorem exists_stranded :
    (∃ s, Play.run? { pool := narrowPool } failingRun = some s ∧
      (∀ step ∈ failingRun, step.panics = false) ∧ s.Stranded) ∧
    ∃ s, Play.run? { pool := narrowPool } retiringRun = some s ∧
      (∀ step ∈ retiringRun, step.panics = false) ∧ s.Stranded := by
  have made : create { queueCapacity := 1, workerCount := some 1, threadName := "a" } 1 =
    .ok narrowPool := rfl
  have failing : Play.run? { pool := narrowPool } failingRun = some _ := rfl
  have retiring : Play.run? { pool := narrowPool } retiringRun = some _ := rfl
  refine ⟨⟨_, failing, by decide, ?_⟩, _, retiring, by decide, ?_⟩
  · exact .of_isOver made failing rfl rfl (by decide) ⟨rfl, rfl⟩ (by decide)
  · exact .of_isOver made retiring rfl rfl (by decide) ⟨rfl, rfl⟩ (by decide)

end Play

end Pool

end BatchPool
