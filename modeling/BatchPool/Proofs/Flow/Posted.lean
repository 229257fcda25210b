import BatchPool.Proofs.Feed.Answers
import BatchPool.Proofs.Flow.Staged
import BatchPool.Proofs.Flow.Toil

/-!
# The calls of the reading thread

The reading thread makes one call after another. Before it starts the pool it makes no call of it, and
the pool is started when the writer runs.

* `Feed.Single`: the reading thread is in one call of the feed at a time.
* `Flow.Posted`: that, and what it has done before it starts the pool.
* `Posted.next`: the steps of a flow keep it.
-/

namespace BatchPool

variable {R S L : Type}

namespace Feed

/-- The reading thread is in one call at a time: it holds a group, or its handler waits for room, or it
is in another call of the pool. -/
structure Single (f : Feed R) : Prop where
  short : (f.calls.stack 0).length ≤ 1
  held : ∀ group rest, f.calls.stack 0 = .holding () group :: rest →
    f.pool.busy (.client 0) = false
  served : ∀ group rest, f.calls.stack 0 = .serving () group :: rest →
    (f.pool.waitingJob? (.client 0)).isSome = true
  /-- It waits for room in no pool that is being started. -/
  started : (f.pool.waitingJob? (.client 0)).isSome = true →
    ∀ caller n, f.pool.lifecycle ≠ .starting caller n

variable {f g : Feed R} {step : Step R}

theorem waitingJob?_of_busy {p : Pool (Job (List R))} {caller : Thread}
    (free : p.busy caller = false) : p.waitingJob? caller = none := by
  have none := (Pool.busy_eq_false_iff.1 free).1
  have absent : p.waitingOf? caller = Option.none :=
    List.find?_eq_none.2 fun c hc => by simpa using none c hc
  rw [Pool.waitingJob?, absent, Option.map_none]

theorem stack_eq_nil_of_free (free : f.free 0 = true) :
    f.calls.stack 0 = [] ∧ f.pool.busy (.client 0) = false := by
  simpa [Feed.free] using free

/-- A call of the batch by the reading thread. -/
theorem Single.call_next {calls : Batch.Calls R Unit} (h : f.Single) (free : f.free 0 = true)
    (stack : calls.stack 0 = f.calls.stack 0 ∨
      ∃ group, calls.stack 0 = .holding () group :: f.calls.stack 0) :
    Single { f with calls := calls } := by
  obtain ⟨empty, idle⟩ := stack_eq_nil_of_free free
  rw [empty] at stack
  refine ⟨?_, fun _ _ _ => idle, ?_, h.started⟩
  · obtain same | ⟨group, one⟩ := stack
    · simp [same]
    · simp [one]
  · intro group rest serving
    have serving : calls.stack 0 = .serving () group :: rest := serving
    obtain same | ⟨group, one⟩ := stack
    · rw [same] at serving
      cases serving
    · rw [one] at serving
      cases serving

/-- A thread that waits for room after a step did so before, or has just called. -/
theorem waits_before {p q : Pool (Job (List R))} {poolStep : Pool.Step (Job (List R))}
    {events : List (Pool.Event (Job (List R)))} {caller : Thread}
    (hm : Pool.Moves p poolStep q events) (waits : (q.waitingJob? caller).isSome = true) :
    (p.waitingJob? caller).isSome = true ∨ p.mayCall caller = true := by
  have next := hm.waitingJob_next caller
  cases hm with
  | @enqueue other job free =>
    by_cases same : other = caller
    · exact .inr (same ▸ free)
    · rw [next, Pool.Step.waitingJob, if_neg same] at waits
      exact .inl waits
  | @insert other | @rollback other =>
    by_cases same : other = caller
    · rw [next, Pool.Step.waitingJob, if_pos same] at waits
      cases waits
    · rw [next, Pool.Step.waitingJob, if_neg same] at waits
      exact .inl waits
  | refuse =>
    rw [next] at waits
    exact .inl waits
  | _ => exact .inl waits

/-- A thread does not wait for room while it starts the pool. -/
theorem started_next {p q : Pool (Job (List R))} {poolStep : Pool.Step (Job (List R))}
    {events : List (Pool.Event (Job (List R)))} {leader : Thread}
    (hm : Pool.Moves p poolStep q events) (led : p.Led leader) (led' : q.Led leader)
    (started : (p.waitingJob? leader).isSome = true → ∀ caller n, p.lifecycle ≠ .starting caller n)
    (waits : (q.waitingJob? leader).isSome = true) :
    ∀ caller n, q.lifecycle ≠ .starting caller n := by
  have before : ∀ caller n, p.lifecycle ≠ .starting caller n := by
    obtain old | new := waits_before hm waits
    · exact started old
    · intro caller n starting
      exact (Pool.of_mayCall new).2 n (led.starting caller n starting ▸ starting)
  intro caller n starting
  cases hm with
  | @startFirst other free =>
    obtain rfl : other = leader := led'.starting _ _ rfl
    simp only [Pool.mayCall, Bool.and_eq_true, Bool.not_eq_true'] at free
    have none := waitingJob?_of_busy free.1.2
    have waits : (p.waitingJob? other).isSome = true := waits
    rw [none] at waits
    cases waits
  | spawnWorker lifecycle => exact before _ _ lifecycle
  | spawnFails | spawnLoop => cases starting
  | retire | drop =>
    split at starting
    · cases starting
    · exact before _ _ starting
  | _ => exact before _ _ starting

/-- When the call returns that waited for room, the call of the batch returns too. -/
theorem Single.stack_leave (h : f.Single) (play : Pool.Play (Job (List R)))
    {job : Job (List R)} (waited : f.pool.waitingJob? (.client 0) = some job) (outcome : Outcome) :
    (leave { f with play := play } 0 outcome).calls.stack 0 = [] := by
  have short := h.short
  obtain ⟨group, rest, serving, -, left⟩ | ⟨unserving, left⟩ :=
    leave_cases { f with play := play } 0 outcome
  · rw [show f.calls.stack 0 = _ from serving] at short
    rw [left]
    simpa using short
  · rw [left]
    show f.calls.stack 0 = []
    match stack : f.calls.stack 0 with
    | [] => rfl
    | .serving () group :: rest => exact absurd stack (unserving group rest)
    | .holding () group :: rest =>
      rw [waitingJob?_of_busy (h.held group rest stack)] at waited
      cases waited

/-- A call returns. -/
theorem Single.of_returned (empty : f.calls.stack 0 = [])
    (idle : f.pool.waitingJob? (.client 0) = none) : f.Single where
  short := by simp [empty]
  held := fun group rest held => by
    rw [empty] at held
    cases held
  served := fun group rest serving => by
    rw [empty] at serving
    cases serving
  started := fun waits => by
    rw [idle] at waits
    cases waits

/-- **The steps of a reading thread keep it in one call at a time.** -/
theorem Single.next (h : f.Single) (hm : Moves f step g) (read : step.Read)
    (led : f.pool.Led (.client 0)) (led' : g.pool.Led (.client 0))
    (callers : ∀ c ∈ f.pool.waiting, c.caller = .client 0) : g.Single := by
  cases hm with
  | push free move =>
    obtain rfl := read
    exact h.call_next free (stack_of_call move (.inl ⟨_, rfl⟩))
  | flush free move =>
    obtain rfl := read
    exact h.call_next free (stack_of_call move (.inr rfl))
  | @enter t group rest calls play holding move enqueued =>
    obtain rfl := read
    obtain ⟨q, events, hq, rfl⟩ := Pool.Play.moves_of_step? enqueued
    have short := h.short
    have stack := stack_of_enter holding move
    rw [holding] at short
    refine ⟨by simpa [stack] using short, fun group' rest' held => ?_, fun _ _ _ => ?_,
      started_next hq led led' h.started⟩
    · have held : calls.stack 0 = .holding () group' :: rest' := held
      rw [stack] at held
      cases held
    · show (q.waitingJob? (.client 0)).isSome = true
      rw [hq.waitingJob_next, Pool.Step.waitingJob, if_pos rfl]
      rfl
  | @answer poolStep play t outcome moved returned =>
    obtain ⟨q, events, hq, rfl⟩ := Pool.Play.moves_of_step? moved
    obtain ⟨job, waited, after⟩ := answer_of_returned hq returned
    obtain rfl : t = 0 := by
      obtain ⟨c, call, -⟩ := Option.map_eq_some_iff.1 waited
      have mine := callers c (List.mem_of_find?_eq_some call)
      have same : c.caller = .client t := by simpa using List.find?_some call
      rw [mine] at same
      cases same
      rfl
    have idle := (after 0).1
    rw [if_pos rfl] at idle
    refine .of_returned (h.stack_leave _ waited outcome) ?_
    rw [Feed.pool, play_leave]
    exact idle
  | @pool poolStep play allowed moved other =>
    obtain ⟨q, events, hq, rfl⟩ := Pool.Play.moves_of_step? moved
    refine ⟨h.short, fun group rest held => ?_, fun group rest serving => ?_,
      started_next hq led led' h.started⟩
    · refine hq.busy_next (h.held group rest held) fun mine => ?_
      have held : f.calls.stack 0 = .holding () group :: rest := held
      simp [allows, mine, held] at allowed
    · refine hq.waits_next (fun mine => ?_) (h.served group rest serving)
      unfold Pool.Step.answered? at mine
      split at mine <;> cases mine <;> cases other

/-- Where no call has begun yet, none begins by itself. -/
theorem untouched_next {poolStep : Pool.Step (Job (List R))}
    (moved : f.step? (.pool poolStep) = some g) (continues : poolStep.continues = true)
    (h : f.pool.waiting = [] ∧ f.calls.stack 0 = []) :
    g.pool.waiting = [] ∧ g.calls.stack 0 = [] := by
  have hm := Moves.of_step? moved
  constructor
  · obtain ⟨-, other⟩ | ⟨step, moved, own⟩ := hm.play_cases
    · exact absurd rfl (other _)
    obtain rfl : poolStep = step := by
      obtain same | ⟨⟨t, other⟩, -⟩ := own
      · exact Step.pool.inj same
      · cases other
    obtain ⟨q, es, hq, same⟩ := Pool.Play.moves_of_step? moved
    have pool : g.pool = q := by
      rw [Feed.pool, same]
      rfl
    rw [pool]
    refine List.eq_nil_iff_forall_not_mem.2 fun c hc => ?_
    obtain ⟨d, hd, -⟩ | rfl := hq.mem_waiting hc
    · rw [show f.play.pool.waiting = [] from h.1] at hd
      cases hd
    · cases continues
  · cases hm with
    | @answer _ play t outcome =>
      obtain ⟨group, rest, serving, -, left⟩ | ⟨-, left⟩ :=
        leave_cases { f with play := play } t outcome
      · rw [left, Batch.Calls.stack_note]
        by_cases mine : 0 = t
        · subst mine
          rw [show f.calls.stack 0 = _ from serving] at h
          cases h.2
        · rw [Batch.Calls.stack_setStack_ne _ mine]
          exact h.2
      · rw [left]
        exact h.2
    | pool => exact h.2

end Feed

namespace Flow

variable {batchSize : Nat} {p : Pool (Job (List R))} {w : Pool (Job L)} {records : List R}
  {complete : Bool} {phase phase' : Phase R} {plan : Plan R S L} {f g : Flow R S L} {actor : Actor}

/-- What holds of the calls of the reading thread. It does not touch the pool before it starts it, and
then the writer runs already. -/
structure Posted (f : Flow R S L) : Prop where
  single : f.feed.Single
  untouched : .startPool ∈ f.commands → f.feed.pool.waiting = [] ∧ f.feed.calls.stack 0 = []
  running : .startPool ∉ f.commands → f.writer.pool.lifecycle = .running

/-- The pool is started in one of the first two phases. -/
theorem startPool_mem : Command.startPool ∈ phase.commands complete ↔ phase.order < 2 := by
  cases phase <;> cases complete <;> simp [Phase.commands, Phase.closing, Phase.order]

theorem running_of_idle {J : Type} {p : Pool J} {leader : Thread} (led : p.Led leader)
    (launched : p.Launched) (free : p.busy leader = false) : p.lifecycle = .running := by
  obtain running | ⟨caller, n, starting⟩ := launched
  · exact running
  · exact absurd (led.starting caller n starting ▸ starting) ((Pool.busy_eq_false_iff.1 free).2.2 n)

/-- A move begins a command, or leaves the commands as they are. -/
theorem Staged.commands_cases (h : Staged batchSize p w records complete phase f)
    (hm : Moves plan f actor g) :
    g.commands = f.commands ∨ ∃ command k, f.AtCommand ∧ f.commands = command :: g.commands ∧
      f.begin? command = some k ∧ g.feed = k.feed ∧ g.writer = k.writer := by
  cases hm with
  | @command command rest k free commands begun =>
    exact .inr ⟨command, k, free, commands, begun, rfl, rfl⟩
  | call next =>
    rw [h.afterCall_eq next]
    exact .inl rfl
  | wait =>
    unfold afterWrite
    split <;> exact .inl rfl
  | write =>
    unfold afterLine
    split <;> exact .inl rfl
  | _ => exact .inl rfl

theorem Posted.untouched_next (h : f.Posted) (staged : Staged batchSize p w records complete phase f)
    (hm : Moves plan f actor g) (mem : .startPool ∈ g.commands) :
    g.feed.pool.waiting = [] ∧ g.feed.calls.stack 0 = [] := by
  obtain same | ⟨command, k, -, commands, begun, feed, -⟩ := staged.commands_cases hm
  · have before := h.untouched (same ▸ mem)
    cases hm with
    | command _ commands => exact absurd same (by rw [commands]; simp)
    | enter holding =>
      rw [before.2] at holding
      cases holding
    | call next moved =>
      rw [staged.afterCall_eq next]
      exact Feed.untouched_next moved (Pool.callStep?_continues next).1 before
    | dispatch next moved => exact Feed.untouched_next moved (Pool.loopStep?_continues next).1 before
    | work _ next moved | receive _ next moved =>
      exact Feed.untouched_next moved (Pool.workerStep?_continues next).1 before
    | conclude _ _ moved => exact Feed.untouched_next moved rfl before
    | wait =>
      unfold afterWrite
      split <;> exact before
    | write =>
      unfold afterLine
      split <;> exact before
    | _ => exact before
  · -- Only the start of the writer comes before the start of the pool.
    obtain ⟨phase', begins, rest⟩ := Phase.Begins.of_commands staged.asks (staged.commands ▸ commands)
    rw [rest, startPool_mem] at mem
    cases begins with
    | startWriter records =>
      obtain ⟨writer, -, rfl⟩ := Option.map_eq_some_iff.1 begun
      rw [feed]
      exact h.untouched (commands ▸ List.mem_cons_of_mem _ (rest ▸ startPool_mem.2 mem))
    | idle => exact absurd mem (by have := Phase.order_waited R complete; omega)
    | _ => simp [Phase.order] at mem

theorem Posted.start {shared : S} (fresh : p.Fresh) (commands : List (Command R))
    (opens : .startPool ∈ commands) : (Flow.fresh batchSize p w shared commands).Posted where
  single := {
    short := Nat.zero_le _
    held := fun _ _ held => by cases held
    served := fun _ _ served => by cases served
    started := fun _ caller n starting => by
      rw [show (Flow.fresh batchSize p w shared commands).feed.pool.lifecycle = .stopped from
        fresh.lifecycle] at starting
      cases starting }
  untouched := fun _ => ⟨fresh.waiting, rfl⟩
  running := fun absent => absurd opens absent

/-- **The steps of a flow keep what holds of the calls of its reading thread.** -/
theorem Posted.next (h : f.Posted) (staged : Staged batchSize p w records complete phase f)
    (staged' : Staged batchSize p w records complete phase' g) (hm : Moves plan f actor g) :
    g.Posted where
  single := by
    obtain same | ⟨step, moved, read⟩ := hm.feed_cases
    · exact same ▸ h.single
    · exact h.single.next (.of_step? moved) read staged.feed.steered.led staged'.feed.steered.led
        staged.feed.callers
  untouched := h.untouched_next staged hm
  running := by
    intro absent
    by_cases before : .startPool ∈ f.commands
    · obtain same | ⟨command, k, free, commands, begun, -, writer⟩ := staged.commands_cases hm
      · exact absurd (same ▸ before) absent
      rw [commands, List.mem_cons] at before
      obtain rfl := before.resolve_right absent
      obtain ⟨feed, -, rfl⟩ := Option.map_eq_some_iff.1 begun
      have late : 1 ≤ phase.order := by
        cases phase with
        | opening => cases staged.commands.symm.trans commands
        | _ => simp [Phase.order]
      rw [writer]
      exact running_of_idle staged.writer.led (staged.writer.launched (decide_eq_true late))
        (Pool.busy_eq_false free.writer)
    · have running := h.running before
      obtain same | ⟨step, moved⟩ := hm.writer_cases
      · rw [same]
        exact running
      · obtain ⟨q, es, hq, same⟩ := Pool.Play.moves_of_step? moved
        rw [same]
        exact hq.running_next running

end Flow

end BatchPool
