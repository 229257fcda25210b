import BatchPool.Flow.Run
import BatchPool.Proofs.Flow.Posted

/-!
# A flow goes on until its reading thread is done

Whom a thread waits for can itself go on: the reading thread waits for the pool, the workers of the
pool wait for the writer, and the writer waits for nobody.

* `Flow.Halted`: a flow of which no thread can move.
* `Halted.writer_still`, `Halted.executing?_eq`, `Halted.pool_still`: the writer stands still, so no
  worker waits for it, and so the pool stands still.
* `Halted.returned`: so the reading thread is done.
* `exists_run_finish`: a flow that is run to its end is one of which no thread can move.
-/

namespace BatchPool

variable {R S L : Type}

namespace Pool

theorem isSome_start {J : Type} {p : Pool J} {caller : Thread} (may : p.mayCall caller = true) :
    (p.step? (.start caller)).isSome = true := by
  rw [step?, Pool.start, if_pos may]
  split <;> rfl

/-- A thread is free to make a call if the pool is kept and the thread is in no call. -/
theorem Led.mayCall_client {J : Type} {p : Pool J} {leader : Thread} {n : Nat} (h : p.Led leader)
    (free : p.busy (.client n) = false) : p.mayCall (.client n) = true := by
  simp [mayCall, h.kept, free]

end Pool

namespace Feed

variable {f : Feed R} {step : Pool.Step (Job (List R))}

theorem isSome_step?_pool (allowed : f.allows step = true)
    (possible : (f.pool.step? step).isSome = true) : (f.step? (.pool step)).isSome = true := by
  have moved : (f.play.step? step).isSome = true := Pool.Play.isSome_step?.trans possible
  simpa [Feed.step?, allowed] using moved

theorem allows_of_continues (continues : step.continues = true) : f.allows step = true := by
  cases step with
  | enqueue | offer | close | start | shutDown | idle | drop => cases continues
  | _ => rfl

/-- The handler of a thread enqueues its group if the thread is in no other call of the pool. -/
theorem isSome_step?_enter {t : Nat} {group : List R} {rest : List (Batch.Frame R Unit)}
    (holding : f.calls.stack t = .holding () group :: rest)
    (free : f.pool.mayCall (.client t) = true) : (f.step? (.enter t)).isSome = true := by
  have enqueued : ((f.play.step? (.enqueue (.client t) (.ofContext group))).isSome) = true := by
    have free : f.play.pool.mayCall (.client t) = true := free
    rw [Pool.Play.isSome_step?]
    simp [Pool.step?, Pool.enqueue, free]
  obtain ⟨play, moved⟩ := Option.isSome_iff_exists.1 enqueued
  simp [Feed.step?, Batch.Calls.move?, holding, moved]

/-- The reading thread is free for the next call if no call of it goes on. -/
theorem Single.free (h : f.Single)
    (unheld : ∀ group rest, f.calls.stack 0 ≠ .holding () group :: rest)
    (pool : f.pool.callStep? (.client 0) = none) : f.free 0 = true := by
  have empty : f.calls.stack 0 = [] := by
    match stack : f.calls.stack 0 with
    | [] => rfl
    | .holding () group :: rest => exact absurd stack (unheld group rest)
    | .serving () group :: rest =>
      have waits := h.served group rest stack
      rw [Pool.waitingJob?_of_callStep? pool] at waits
      cases waits
  simp [Feed.free, empty, Pool.busy_eq_false pool]

end Feed

namespace Flow

/-- The pools of a flow before their threads are started. -/
structure Prepared (p : Pool (Job (List R))) (w : Pool (Job L)) : Prop where
  pool : p.Fresh
  writer : w.Fresh
  single : w.workerCount = 1
  room : 0 < p.capacity
  writerRoom : 0 < w.capacity

/-- A flow, in a phase of its reading thread, of which no thread can move. -/
structure Halted (batchSize : Nat) (p : Pool (Job (List R))) (w : Pool (Job L)) (records : List R)
    (complete : Bool) (phase : Phase R) (plan : Plan R S L) (f : Flow R S L) : Prop where
  staged : Staged batchSize p w records complete phase f
  posted : f.Posted
  manned : f.work.Manned
  stuck : ∀ actor ∈ f.actors, f.step? plan actor = none

variable {batchSize : Nat} {p : Pool (Job (List R))} {w : Pool (Job L)} {records : List R}
  {complete : Bool} {phase : Phase R} {plan : Plan R S L} {f : Flow R S L}

theorem Prepared.of_create {c : PoolConfig} {processors writerCapacity : Nat}
    {p : Pool (Job (List R))} {w : Pool (Job L)} (pool : Pool.create c processors = .ok p)
    (writer : Pool.create (Pool.singleConfig writerCapacity) processors = .ok w) :
    Prepared p w where
  pool := .of_create pool
  writer := .of_create writer
  single := Pool.workerCount_of_create writer
  room := (Pool.create_pos pool).2
  writerRoom := (Pool.create_pos writer).2

/-- With a worker and room in both queues a flow can be made. -/
theorem exists_create {c : PoolConfig} {processors writerCapacity : Nat}
    (workers : 0 < c.workers processors) (room : 0 < c.queueCapacity)
    (writerRoom : 0 < writerCapacity) (batchSize : Nat) (shared : S) (commands : List (Command R)) :
    ∃ (p : Pool (Job (List R))) (w : Pool (Job L)), Prepared p w ∧
      create batchSize c processors writerCapacity shared commands =
        .ok (fresh batchSize p w shared commands) := by
  obtain ⟨p, pool⟩ : ∃ p : Pool (Job (List R)), Pool.create c processors = .ok p :=
    Pool.exists_create workers room
  obtain ⟨w, writer⟩ : ∃ w : Pool (Job L),
      Pool.create (Pool.singleConfig writerCapacity) processors = .ok w :=
    Pool.exists_create Nat.one_pos writerRoom
  refine ⟨p, w, .of_create pool writer, ?_⟩
  rw [create, writer, pool]
  rfl

/-- Whatever flow is made consists of two pools before their threads are started. -/
theorem exists_fresh {c : PoolConfig} {processors writerCapacity batchSize : Nat} {shared : S}
    {commands : List (Command R)}
    (h : create batchSize c processors writerCapacity shared commands = .ok f) :
    ∃ (p : Pool (Job (List R))) (w : Pool (Job L)), Prepared p w ∧
      p.workerCount = c.workers processors ∧ f = fresh batchSize p w shared commands := by
  unfold create at h
  cases writer : Pool.create (J := Job L) (Pool.singleConfig writerCapacity) processors with
  | error =>
    rw [writer] at h
    cases h
  | ok w =>
    cases pool : Pool.create (J := Job (List R)) c processors with
    | error =>
      rw [writer, pool] at h
      cases h
    | ok p =>
      rw [writer, pool] at h
      cases h
      exact ⟨p, w, .of_create pool writer, Pool.workerCount_of_create pool, rfl⟩

/-! ## The writer -/

theorem isSome_writerStep? {step : Pool.Step (Job L)} :
    (f.writerStep? step).isSome = (f.writer.pool.step? step).isSome := by
  rw [writerStep?, Option.isSome_map, Pool.Play.isSome_step?]

theorem Halted.not_isSome (h : Halted batchSize p w records complete phase plan f)
    (actor : Actor) (mem : actor ∈ f.actors) : ¬(f.step? plan actor).isSome = true := by
  rw [h.stuck actor mem]
  exact Bool.false_ne_true

/-- **The writer stands still**: its worker waits for nobody when it is at work. -/
theorem Halted.writer_still (h : Halted batchSize p w records complete phase plan f)
    (prepared : Prepared p w) : f.writer.pool.Still := by
  obtain ⟨steps, hs, -⟩ := h.staged.writer.run
  have one : f.writer.pool.workers.length = 1 :=
    (Pool.Play.workerCount_eq hs).trans prepared.single
  have free : f.writer.pool.busy (.worker 0) = false := by
    refine h.staged.writer.led.busy_eq_false (by simp) fun c hc => ?_
    obtain ⟨i, line, t, caller, -⟩ := h.staged.asked c hc
    simp [caller]
  have absent : ∀ i, f.writer.pool.workers[i + 1]? = none := fun i =>
    List.getElem?_eq_none (by omega)
  have idle : f.writer.pool.executing? 0 = none := by
    by_contra executing
    obtain ⟨t, executing⟩ := Option.ne_none_iff_exists'.1 executing
    have ends := Pool.conclude_isSome (plan.write t.job.context) executing free
    refine h.not_isSome .writer (by simp [actors]) ?_
    simpa [step?, writeStep?, executing, isSome_writerStep?] using ends
  constructor
  · intro step next
    by_contra possible
    refine h.not_isSome .writerDispatch (by simp [actors]) ?_
    simpa [step?, next, isSome_writerStep?, Option.isSome_iff_ne_none] using possible
  · intro i step next
    cases i with
    | zero =>
      by_contra possible
      refine h.not_isSome .writer (by simp [actors]) ?_
      simpa [step?, writeStep?, idle, next, isSome_writerStep?, Option.isSome_iff_ne_none]
        using possible
    | succ i => simp [Pool.workerStep?, absent i] at next
  · intro i
    cases i with
    | zero => exact idle
    | succ i => simp [Pool.executing?, absent i]

/-! ## The workers of the pool -/

/-- The pool is not started while the reading thread has still to start it. -/
theorem Staged.executing?_of_unstarted (h : Staged batchSize p w records complete phase f)
    (fresh : p.Fresh) (early : .startPool ∈ f.commands) (i : Nat) :
    f.feed.pool.executing? i = none := by
  rw [h.commands, startPool_mem] at early
  obtain ⟨steps, hs, -⟩ := h.feed.steered.run
  have stopped := h.feed.steered.stopped (decide_eq_false (by omega))
  unfold Pool.executing?
  split
  · next here =>
    have unborn := (fresh.sound.of_run hs).newborn 0 (by rw [stopped]; rfl) i _ (Nat.zero_le i) here
    cases unborn
  · rfl

/-- A worker at work goes on, as there is room in the queue of the writer. -/
theorem Staged.isSome_taskStep? (h : Staged batchSize p w records complete phase f) {i : Nat}
    {t : Ticket (Job (List R))} (executing : f.feed.pool.executing? i = some t)
    (room : f.writer.pool.isFull = false) (task : Task S L) : (f.taskStep? i task).isSome = true := by
  cases task with
  | act => rfl
  | call line =>
    cases next : f.writer.pool.callStep? (.client (i + 1)) with
    | none =>
      have free := h.writer.led.mayCall_client (Pool.busy_eq_false next)
      simp [taskStep?, next, isSome_writerStep?, Pool.step?, Pool.enqueue, free]
    | some step =>
      have possible := h.writer.led.call_isSome next (fun _ => room) fun _ _ joins => by
        cases h.writer.led.shutdowns _ joins
      simpa [taskStep?, next, isSome_writerStep?] using possible
  | stop outcome =>
    have free : f.feed.pool.busy (.worker i) = false :=
      h.feed.steered.led.busy_eq_false (by simp) fun c hc => by simp [h.feed.callers c hc]
    have possible := Feed.isSome_step?_pool (f := f.feed) rfl
      (Pool.conclude_isSome outcome executing free)
    simpa [taskStep?, feedStep?] using possible

theorem Halted.workerStep?_eq (h : Halted batchSize p w records complete phase plan f) (i : Nat) :
    f.workerStep? plan i = none := by
  by_cases less : i < f.feed.pool.workerCount
  · exact h.stuck (.worker i) (by simp [actors, less])
  · have absent : f.feed.pool.workers[i]? = none := List.getElem?_eq_none (Nat.le_of_not_lt less)
    simp [workerStep?, Pool.executing?, Pool.workerStep?, absent]

/-- **No worker is at work**: it would wait for the writer, whose queue has room. -/
theorem Halted.executing?_eq (h : Halted batchSize p w records complete phase plan f)
    (prepared : Prepared p w) (i : Nat) : f.feed.pool.executing? i = none := by
  by_contra executing
  obtain ⟨t, executing⟩ := Option.ne_none_iff_exists'.1 executing
  have started : .startPool ∉ f.commands := fun early => by
    rw [h.staged.executing?_of_unstarted prepared.pool early i] at executing
    cases executing
  have room := h.staged.writer.room_of_still prepared.writer prepared.writerRoom
    (h.posted.running started) (h.writer_still prepared)
  obtain ⟨task, mine⟩ := h.manned i t executing
  have possible := h.staged.isSome_taskStep? executing room task
  have blocked := h.workerStep?_eq i
  rw [workerStep?, executing] at blocked
  have blocked : (f.task? i).bind (f.taskStep? i) = none := blocked
  rw [show f.task? i = some task from mine, Option.bind_some] at blocked
  rw [blocked] at possible
  cases possible

/-! ## The pool -/

/-- **So the pool stands still.** -/
theorem Halted.pool_still (h : Halted batchSize p w records complete phase plan f)
    (prepared : Prepared p w) : f.feed.pool.Still := by
  have idle := h.executing?_eq prepared
  constructor
  · intro step next
    by_contra possible
    have allowed := Feed.allows_of_continues (f := f.feed) (Pool.loopStep?_continues next).1
    have moved := Feed.isSome_step?_pool allowed (Option.isSome_iff_ne_none.2 possible)
    refine h.not_isSome .dispatch (by simp [actors]) ?_
    simpa [step?, next, feedStep?] using moved
  · intro i step next
    by_contra possible
    have allowed := Feed.allows_of_continues (f := f.feed) (Pool.workerStep?_continues next).1
    have moved := Feed.isSome_step?_pool allowed (Option.isSome_iff_ne_none.2 possible)
    have blocked := h.workerStep?_eq i
    simp [workerStep?, idle i, next, feedStep?, Option.isSome_iff_ne_none.1 moved] at blocked
  · exact idle

/-! ## The reading thread -/

/-- The pool was started before its queue was closed or a call waited for room. -/
theorem Staged.launched (h : Staged batchSize p w records complete phase f)
    (late : 2 ≤ phase.order) : f.feed.pool.Launched :=
  h.feed.steered.launched (decide_eq_true late)

/-- A call of the pool goes on, since it finds room and the threads of the pool have ended. -/
theorem Halted.isSome_call (h : Halted batchSize p w records complete phase plan f)
    (prepared : Prepared p w) {step : Pool.Step (Job (List R))}
    (next : f.feed.pool.callStep? (.client 0) = some step) :
    (f.feed.step? (.pool step)).isSome = true := by
  have steered := h.staged.feed.steered
  have led : f.feed.pool.Led (.client 0) := steered.led
  have still := h.pool_still prepared
  refine Feed.isSome_step?_pool (Feed.allows_of_continues (Pool.callStep?_continues next).1) ?_
  refine led.call_isSome next (fun waits => ?_) fun t rest joins => ?_
  · have started : .startPool ∉ f.commands := fun early => by
      rw [Pool.waitingOf?, (h.posted.untouched early).1] at waits
      cases waits
    rw [h.staged.commands, startPool_mem, Nat.not_lt] at started
    refine steered.room_of_still prepared.pool prepared.room ?_ still
    obtain running | ⟨caller, n, starting⟩ := h.staged.launched started
    · exact running
    · exact absurd starting (h.posted.single.started (by simpa [Pool.waitingJob?] using waits) _ _)
  · have closed := led.closed_of_mem joins
    have late : 6 ≤ phase.order := of_decide_eq_true (steered.closed_eq.symm.trans closed)
    refine steered.joins_of_still prepared.pool ?_ still joins
    obtain running | ⟨caller, n, starting⟩ := h.staged.launched (by omega)
    · exact running
    · exact absurd starting ((led.after closed).1 _ _)

/-- So does a call of the writer. -/
theorem Halted.isSome_writerCall (h : Halted batchSize p w records complete phase plan f)
    (prepared : Prepared p w) {step : Pool.Step (Job L)}
    (next : f.writer.pool.callStep? (.client 0) = some step) :
    (f.writer.pool.step? step).isSome = true := by
  have steered := h.staged.writer
  refine steered.led.call_isSome next (fun waits => ?_) fun t rest joins => ?_
  · obtain ⟨c, call⟩ := Option.isSome_iff_exists.1 waits
    have mine : c.caller = .client 0 := by simpa using List.find?_some call
    exact absurd mine (h.staged.not_waiting (List.mem_of_find?_eq_some call))
  · have closed := steered.led.closed_of_mem joins
    have late : 7 ≤ phase.order := of_decide_eq_true (steered.closed_eq.symm.trans closed)
    have started : .startPool ∉ f.commands := by
      rw [h.staged.commands, startPool_mem]
      omega
    exact steered.joins_of_still prepared.writer (h.posted.running started)
      (h.writer_still prepared) joins

/-- The next command can begin. The reading thread waits for the pool only until nothing is in
flight. -/
theorem Halted.isSome_begin? (h : Halted batchSize p w records complete phase plan f)
    (prepared : Prepared p w) (free : f.AtCommand) {command : Command R} {rest : List (Command R)}
    (commands : f.commands = command :: rest) : (f.begin? command).isSome = true := by
  have steered := h.staged.feed.steered
  have alone := h.posted.single.free free.unheld free.pool
  obtain ⟨empty, idle⟩ := Feed.stack_eq_nil_of_free alone
  have may : f.feed.pool.mayCall (.client 0) = true := steered.led.mayCall_client idle
  have writerMay := h.staged.writer.led.mayCall_client (Pool.busy_eq_false free.writer)
  have pool : ∀ {step}, step.beginner? = some (.client 0) →
      (f.feed.pool.step? step).isSome = true → (f.feedStep? (.pool step)).isSome = true := by
    intro step mine possible
    have allowed : f.feed.allows step = true := by simp [Feed.allows, mine, empty]
    simpa [feedStep?] using Feed.isSome_step?_pool allowed possible
  obtain ⟨phase', begins, -⟩ := Phase.Begins.of_commands h.staged.asks
    (h.staged.commands ▸ commands)
  cases begins with
  | startWriter => exact isSome_writerStep?.trans (Pool.isSome_start writerMay)
  | shutWriter => simp [begin?, isSome_writerStep?, Pool.step?, Pool.shutDown, writerMay]
  | startPool => exact pool rfl (Pool.isSome_start may)
  | last => exact pool rfl (by simp [Pool.step?, Pool.enqueue, may])
  | shutPool => exact pool rfl (by simp [Pool.step?, Pool.shutDown, may])
  | push | flush =>
    simp [begin?, feedStep?, Feed.step?, alone, Batch.Calls.move?, Batch.Calls.mayCall, empty]
  | idle =>
    have running := running_of_idle steered.led (h.staged.launched (by simp [Phase.order])) idle
    have waiting := h.staged.feed.waiting_eq_nil (Pool.waitingOf?_of_mayCall may)
    have none : f.feed.pool.inFlight = 0 := by
      have counted := steered.inFlight_of_still prepared.pool running (h.pool_still prepared)
      rw [show f.feed.play.pool.waiting = [] from waiting] at counted
      exact counted
    exact pool rfl (by simp [Pool.step?, Pool.idle, may, none])

/-- **A flow of which no thread can move has its reading thread done.** -/
theorem Halted.returned (h : Halted batchSize p w records complete phase plan f)
    (prepared : Prepared p w) : f.Returned := by
  have blocked : f.readerStep? plan = none := h.stuck .reader (by simp [actors])
  unfold readerStep? at blocked
  split at blocked
  · next group rest holding =>
    have free := h.staged.feed.steered.led.mayCall_client (h.posted.single.held group rest holding)
    have possible := Feed.isSome_step?_enter holding free
    simp [feedStep?, Option.isSome_iff_ne_none.1 possible] at blocked
  · next unheld =>
    split at blocked
    · next step next =>
      have possible := h.isSome_call prepared next
      simp [feedStep?, Option.isSome_iff_ne_none.1 possible] at blocked
    · next pool =>
      split at blocked
      · next step next =>
        have possible := h.isSome_writerCall prepared next
        rw [← Option.not_isSome_iff_eq_none, isSome_writerStep?] at blocked
        exact absurd possible blocked
      · next writer =>
        have free : f.AtCommand := ⟨fun group rest => unheld () group rest, pool, writer⟩
        split at blocked
        · next commands =>
          exact ⟨commands, h.posted.single.free free.unheld pool, Pool.busy_eq_false writer⟩
        · next command rest commands =>
          have possible := h.isSome_begin? prepared free commands
          simp [Option.isSome_iff_ne_none.1 possible] at blocked

/-- **And then no thread can move any more.** -/
theorem Staged.stopped (h : Staged batchSize p w records complete phase f) (fresh : p.Fresh)
    (writerFresh : w.Fresh) (returned : f.Returned) (actor : Actor) :
    f.step? plan actor = none := by
  obtain ⟨pool, writer⟩ := h.pools_finished fresh writerFresh returned
  cases actor with
  | reader =>
    obtain ⟨empty, idle⟩ := Feed.stack_eq_nil_of_free returned.feed
    simp [step?, readerStep?, empty, Pool.callStep?_eq_none idle,
      Pool.callStep?_eq_none returned.writer, returned.commands]
  | dispatch => simp [step?, pool.exited.loopStep?_eq]
  | worker i => simp [step?, workerStep?, pool.exited.executing?_eq, pool.exited.workerStep?_eq]
  | writerDispatch => simp [step?, writer.exited.loopStep?_eq]
  | writer => simp [step?, writeStep?, writer.exited.executing?_eq, writer.exited.workerStep?_eq]

/-! ## Runs -/

/-- A fresh flow comes to its end before the bound on its steps. -/
theorem length_lt_stepBound {n : Nat} {shared : S} {commands : List (Command R)}
    {actors : List Actor} (prepared : Prepared p w) (within : ∀ i job, (plan.task i job).Within n)
    (hr : (fresh batchSize p w shared commands).run? plan actors = some f) :
    actors.length < (fresh batchSize p w shared commands).stepBound n := by
  have tidy : (fresh batchSize p w shared commands).Tidy :=
    ⟨prepared.pool.tidy, prepared.writer.tidy, by simp [fresh]⟩
  have length := length_le tidy within hr
  have brought : (commands.map (commandToil (n + 9))).sum ≤ commands.length * (n + 19) := by
    have each := List.sum_le_card_nsmul (commands.map (commandToil (n + 9))) (n + 19) ?_
    · simpa using each
    · intro x hx
      obtain ⟨command, -, rfl⟩ := List.mem_map.1 hx
      cases command <;> simp only [commandToil] <;> omega
  have pool : (fresh batchSize p w shared commands).feed.toil (n + 9) = 4 * p.workerCount + 2 :=
    prepared.pool.toil_eq
  have writer : w.toil 0 = 6 := by rw [prepared.writer.toil_eq, prepared.single]
  have start : (fresh batchSize p w shared commands).toil (n + 9) =
      (commands.map (commandToil (n + 9))).sum + (4 * p.workerCount + 2) + 0 + 6 := by
    rw [toil, pool, ← writer]
    rfl
  have bound : (fresh batchSize p w shared commands).stepBound n =
      (commands.length + 1) * (n + 32) + 8 * (p.workerCount + 4) := rfl
  have more : commands.length * (n + 19) ≤ (commands.length + 1) * (n + 32) :=
    Nat.mul_le_mul (Nat.le_succ _) (by omega)
  omega

/-- Steps until no thread can move are a run. It is as long as there is fuel, or no thread can move
any more. -/
theorem exists_run_advanceAll (plan : Plan R S L) (fuel : Nat) (f : Flow R S L) :
    ∃ actors, f.run? plan actors = some (advanceAll plan fuel f) ∧
      (actors.length = fuel ∨ ∀ actor ∈ (advanceAll plan fuel f).actors,
        (advanceAll plan fuel f).step? plan actor = none) := by
  induction fuel generalizing f with
  | zero => exact ⟨[], rfl, .inl rfl⟩
  | succ fuel ih =>
    unfold advanceAll
    split
    · next g moved =>
      obtain ⟨actor, -, step⟩ := List.exists_of_findSome?_eq_some moved
      obtain ⟨actors, hr, ends⟩ := ih g
      refine ⟨actor :: actors, ?_, ends.imp_left (congrArg (· + 1))⟩
      simp only [run?, step]
      exact hr
    · next blocked => exact ⟨[], rfl, .inr (List.findSome?_eq_none_iff.1 blocked)⟩

/-- **A fresh flow is run until no thread can move.** -/
theorem exists_run_finish {n : Nat} {shared : S} {commands : List (Command R)}
    (prepared : Prepared p w) (within : ∀ i job, (plan.task i job).Within n)
    (start : f = fresh batchSize p w shared commands) :
    ∃ actors, f.run? plan actors = some (f.finish plan n) ∧
      ∀ actor ∈ (f.finish plan n).actors, (f.finish plan n).step? plan actor = none := by
  obtain ⟨actors, hr, all | blocked⟩ := exists_run_advanceAll plan (f.stepBound n) f
  · subst start
    exact absurd all (length_lt_stepBound prepared within hr).ne
  · exact ⟨actors, hr, blocked⟩

end Flow

end BatchPool
