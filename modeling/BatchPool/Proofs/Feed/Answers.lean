import BatchPool.Proofs.Feed.Runs

/-!
# What the calls of a feed come to

A thread that took a group out calls the handler, which enqueues the group; what the pool answers is
what the call of the batch comes to. So a call fails exactly if its own group was refused.

* `Feed.answer?`: what the pool answers to a thread.
* `Feed.Linked`: how the calls of a thread of the batch stand to its calls of the pool, kept by every
  move.
* `Feed.linked`: so it is after every run in which only the batch feeds the pool.
-/

namespace BatchPool

namespace Feed

variable {R : Type} {f g : Feed R} {step : Step R} {t : Nat}

/-- What the pool answers to a thread about a group: it has entered the queue, or the queue is
closed. -/
def answer? (t : Nat) : Pool.Event (Job (List R)) → Option (List R × Reply)
  | .accepted caller ticket => if caller = .client t then some (ticket.job.context, .ok) else none
  | .rejected caller job =>
    if caller = .client t then some (job.context, .failed { cause := .pool .closed }) else none
  | _ => none

/-- The answers of the pool to a thread, with the groups. -/
def answers (f : Feed R) (t : Nat) : List (List R × Reply) := f.play.events (answer? t)

/-- The replies of the batch to a thread that took groups out, with the groups. -/
def groupReplies (f : Feed R) (t : Nat) : List (List R × Reply) :=
  (f.calls.results t).filterMap fun x => x.1.map fun group => (group, x.2)

/-- A thread is in no call, or in one that took out a group: it is before the handler, or it waits in
the handler for room for the group. -/
inductive Stage (f : Feed R) (t : Nat) : Option (List R) → Prop where
  | free (stack : f.calls.stack t = []) (idle : f.pool.waitingJob? (.client t) = none) :
    Stage f t none
  | holding {group : List R} (stack : f.calls.stack t = [.holding () group])
      (idle : f.pool.waitingJob? (.client t) = none) : Stage f t (some group)
  | serving {group : List R} (stack : f.calls.stack t = [.serving () group])
      (waits : f.pool.waitingJob? (.client t) = some (.ofContext group)) : Stage f t (some group)

/-- How the calls of a thread of the batch stand to its calls of the pool. -/
structure Linked (f : Feed R) (t : Nat) : Prop where
  stage : Stage f t (f.calls.pending t)
  groups : f.groupReplies t = f.answers t
  others : ∀ x ∈ f.calls.results t, x.1 = none → x.2 = .ok

/-! ## Steps of the pool -/

section

variable {p q : Pool (Job (List R))} {poolStep : Pool.Step (Job (List R))}
  {events : List (Pool.Event (Job (List R)))}

/-- A call of a handler returns, and the pool has answered. -/
theorem answer_of_returned {u : Nat} {outcome : Outcome} (hm : Pool.Moves p poolStep q events)
    (returned : returned? poolStep = some (u, outcome)) :
    ∃ job, p.waitingJob? (.client u) = some job ∧ ∀ t,
      q.waitingJob? (.client t) = (if u = t then none else p.waitingJob? (.client t)) ∧
        events.filterMap (answer? t) = if u = t then [(job.context, outcome.reply)] else [] := by
  have next := fun t => hm.waitingJob_next (.client t)
  unfold returned? at returned
  split at returned
  · cases returned
    cases hm with
    | insert call =>
      refine ⟨_, by rw [Pool.waitingJob?, call]; rfl, fun t => ⟨?_, ?_⟩⟩
      · simpa [Pool.Step.waitingJob] using next t
      · by_cases same : u = t <;> simp [same, answer?, Outcome.reply]
  · cases returned
    cases hm with
    | rollback call =>
      refine ⟨_, by rw [Pool.waitingJob?, call]; rfl, fun t => ⟨?_, ?_⟩⟩
      · simpa [Pool.Step.waitingJob] using next t
      · by_cases same : u = t <;>
          simp [same, answer?, refusal, Outcome.reply, List.filterMap_cons]
  · cases returned

/-- Another step is no answer, unless it is a call that does not wait. -/
theorem answer_of_other (hm : Pool.Moves p poolStep q events) (other : returned? poolStep = none)
    (direct : poolStep.job? = none) (t : Nat) :
    q.waitingJob? (.client t) = p.waitingJob? (.client t) ∧ events.filterMap (answer? t) = [] := by
  have next := hm.waitingJob_next (.client t)
  cases hm with
  | enqueue | offerClosed | offerFull | offerTaken => cases direct
  | @insert caller | @rollback caller =>
    cases caller with
    | client => cases other
    | worker | dispatch =>
      exact ⟨by simpa [Pool.Step.waitingJob] using next, by simp [answer?, List.filterMap_cons]⟩
  | _ =>
    exact ⟨next, by simp [answer?, List.filterMap_cons, Pool.failStart]⟩

end

/-! ## Moves of the feed -/

theorem answers_next {play : Pool.Play (Job (List R))} {q : Pool (Job (List R))}
    {events : List (Pool.Event (Job (List R)))} (moved : play = { f.play with pool := q }.record events)
    (same : g.play = play) (t : Nat) :
    g.answers t = f.answers t ++ events.filterMap (answer? t) := by
  rw [answers, same, moved, Pool.Play.events_next]
  rfl

theorem Stage.congr {x : Option (List R)} (h : Stage f t x)
    (stack : g.calls.stack t = f.calls.stack t)
    (waiting : g.pool.waitingJob? (.client t) = f.pool.waitingJob? (.client t)) : Stage g t x := by
  cases h with
  | free empty idle => exact .free (stack.trans empty) (waiting.trans idle)
  | holding held idle => exact .holding (stack.trans held) (waiting.trans idle)
  | serving served waits => exact .serving (stack.trans served) (waiting.trans waits)

/-- A thread that is in no call of the batch has no group, and waits for nothing. -/
theorem Stage.of_nil {x : Option (List R)} (h : Stage f t x) (stack : f.calls.stack t = []) :
    x = none ∧ f.pool.waitingJob? (.client t) = none := by
  cases h with
  | free _ idle => exact ⟨rfl, idle⟩
  | holding held | serving held => rw [stack] at held; cases held

theorem Stage.length_le {x : Option (List R)} (h : Stage f t x) : (f.calls.stack t).length ≤ 1 := by
  cases h with
  | free stack | holding stack | serving stack => simp [stack]

/-- A thread with a group in its hands is in no other call. -/
theorem Stage.of_holding {x : Option (List R)} {group : List R} {rest : List (Batch.Frame R Unit)}
    (h : Stage f t x) (stack : f.calls.stack t = .holding () group :: rest) :
    x = some group ∧ rest = [] := by
  cases h with
  | free empty => rw [stack] at empty; cases empty
  | holding held => rw [stack] at held; cases held; exact ⟨rfl, rfl⟩
  | serving served => rw [stack] at served; cases served

/-- A thread that waits for room is in the handler of a group. -/
theorem Stage.of_waiting {x : Option (List R)} {job : Job (List R)} (h : Stage f t x)
    (waits : f.pool.waitingJob? (.client t) = some job) :
    ∃ group, x = some group ∧ f.calls.stack t = [.serving () group] ∧ job = .ofContext group := by
  cases h with
  | free _ idle | holding _ idle => rw [waits] at idle; cases idle
  | serving served same => rw [waits] at same; cases same; exact ⟨_, rfl, served, rfl⟩

/-- A thread that a move is not about is where it was. -/
theorem Linked.congr (h : Linked f t) (stack : g.calls.stack t = f.calls.stack t)
    (pending : g.calls.pending t = f.calls.pending t)
    (results : g.calls.results t = f.calls.results t)
    (waiting : g.pool.waitingJob? (.client t) = f.pool.waitingJob? (.client t))
    (answers : g.answers t = f.answers t) : Linked g t where
  stage := by
    rw [pending]
    exact h.stage.congr stack waiting
  groups := by rw [groupReplies, results, answers, ← h.groups]; rfl
  others := by rw [results]; exact h.others

/-- The call of a thread that took nothing out returns. -/
theorem Linked.kept {calls : Batch.Calls R Unit} (h : Linked f t) (before : f.calls.pending t = none)
    (stack : calls.stack t = f.calls.stack t) (pending : calls.pending t = none)
    (results : calls.results t = f.calls.results t ++ [(none, .ok)]) :
    Linked { f with calls := calls } t where
  stage := by
    have stage := h.stage
    rw [before] at stage
    rw [pending]
    exact stage.congr stack rfl
  groups := by
    have groups := h.groups
    simp only [groupReplies, results, List.filterMap_append] at groups ⊢
    rw [groups]
    exact List.append_nil _
  others := by
    intro x hx
    simp only [results, List.mem_append, List.mem_singleton] at hx
    obtain before | rfl := hx
    · exact h.others x before
    · exact fun _ => rfl

/-- The call of a thread has taken a group out. -/
theorem Linked.took {calls : Batch.Calls R Unit} (h : Linked f t)
    (idle : f.pool.waitingJob? (.client t) = none)
    (taken : ∃ group, calls.stack t = [.holding () group] ∧ calls.pending t = some group)
    (results : calls.results t = f.calls.results t) : Linked { f with calls := calls } t where
  stage := by
    obtain ⟨group, stack, pending⟩ := taken
    rw [pending]
    exact .holding stack idle
  groups := by
    have groups := h.groups
    simp only [groupReplies, results] at groups ⊢
    exact groups
  others := by
    simp only [results]
    exact h.others

/-- A free thread calls the batch: the call returns, or it has taken out a group. -/
theorem Linked.call_next {calls : Batch.Calls R Unit} {m : Batch.Calls.Move R Unit}
    (h : Linked f t) (free : f.free t = true) (hm : Batch.Calls.Moves handlers f.calls m calls)
    (begins : (∃ record, m = .push t record) ∨ m = .flush t) :
    Linked { f with calls := calls } t := by
  have stack : f.calls.stack t = [] := by
    simp only [Feed.free, Bool.and_eq_true, List.isEmpty_iff] at free
    exact free.1
  obtain ⟨none, idle⟩ := h.stage.of_nil stack
  obtain ⟨record, rfl⟩ | rfl := begins
  · cases hm with
    | keep =>
      exact h.kept none rfl (by simp [Batch.Calls.pending_note])
        (by simp [Batch.Calls.results_note, Batch.Calls.pending_note, none])
    | fill =>
      exact h.took idle ⟨_, by simp [stack]; rfl, by simp [Batch.Calls.pending_note]⟩
        (by simp [Batch.Calls.results_note])
  · cases hm with
    | pass =>
      exact h.kept none rfl (by simp [Batch.Calls.pending_note])
        (by simp [Batch.Calls.results_note, none])
    | drain =>
      exact h.took idle ⟨_, by simp [stack]; rfl, by simp [Batch.Calls.pending_note]⟩
        (by simp [Batch.Calls.results_note])

/-- The handler of a thread returns, and so does the call of the batch. -/
theorem Linked.answered {group : List R} {reply : Reply} (h : Linked f t)
    (pending : f.calls.pending t = some group)
    (calls : g.calls = (f.calls.setStack t []).note (.returned t reply))
    (idle : g.pool.waitingJob? (.client t) = none)
    (answers : g.answers t = f.answers t ++ [(group, reply)]) : Linked g t := by
  have results : g.calls.results t = f.calls.results t ++ [(some group, reply)] := by
    simp [calls, Batch.Calls.results_note, pending]
  exact {
    stage := by
      have none : g.calls.pending t = none := by simp [calls, Batch.Calls.pending_note]
      rw [none]
      exact .free (by simp [calls]) idle
    groups := by
      rw [answers, ← h.groups, groupReplies, results, List.filterMap_append]
      rfl
    others := by
      intro x hx
      rw [results, List.mem_append, List.mem_singleton] at hx
      obtain before | rfl := hx
      · exact h.others x before
      · exact fun none => by cases none }

/-- The handler of another thread returns. -/
theorem leave_frame {u : Nat} (ne : t ≠ u) (outcome : Outcome) :
    (f.leave u outcome).calls.stack t = f.calls.stack t ∧
      (f.leave u outcome).calls.pending t = f.calls.pending t ∧
        (f.leave u outcome).calls.results t = f.calls.results t := by
  obtain ⟨_, _, -, -, left⟩ | ⟨-, left⟩ := leave_cases f u outcome
  · rw [left]
    simp [Batch.Calls.stack_setStack_ne _ ne, Batch.Calls.pending_note, Batch.Calls.results_note,
      Ne.symm ne]
  · rw [left]
    exact ⟨rfl, rfl, rfl⟩

/-- A move of the batch by another thread, in which the pool answers nothing to this one. -/
theorem Linked.of_other {m : Batch.Calls.Move R Unit} (h : Linked f t)
    (hm : Batch.Calls.Moves handlers f.calls m g.calls) (other : m.caller? ≠ some t)
    (waiting : g.pool.waitingJob? (.client t) = f.pool.waitingJob? (.client t))
    (answers : g.answers t = f.answers t) : Linked g t := by
  obtain ⟨pending, results⟩ := hm.results_frame other
  exact h.congr (hm.frame other).1 pending results waiting answers

/-- A thread calls the batch, this one or another. -/
theorem Linked.begun_next {u : Nat} {calls : Batch.Calls R Unit} {m : Batch.Calls.Move R Unit}
    (h : Linked f t) (free : f.free u = true) (hm : Batch.Calls.Moves handlers f.calls m calls)
    (begins : (∃ record, m = .push u record) ∨ m = .flush u) :
    Linked { f with calls := calls } t := by
  by_cases same : u = t
  · subst same
    exact h.call_next free hm begins
  · have caller : m.caller? = some u := by obtain ⟨_, rfl⟩ | rfl := begins <;> rfl
    have other : m.caller? ≠ some t := by simpa [caller] using same
    exact h.of_other (g := { f with calls := calls }) hm other rfl rfl

/-- A thread with a group in its hands calls the handler, which is to enqueue the group. -/
theorem Linked.enter_next {u : Nat} {group : List R} {rest : List (Batch.Frame R Unit)}
    {calls : Batch.Calls R Unit} {play : Pool.Play (Job (List R))} (h : Linked f t)
    (holding : f.calls.stack u = .holding () group :: rest)
    (hm : Batch.Calls.Moves handlers f.calls (.enter u) calls)
    (enqueued : f.play.step? (.enqueue (.client u) (.ofContext group)) = some play) :
    Linked { calls := calls, play := play } t := by
  obtain ⟨q, events, poolMoves, rfl⟩ := Pool.Play.moves_of_step? enqueued
  have waiting := poolMoves.waitingJob_next (.client t)
  have silent : events = [] := by cases poolMoves; rfl
  subst silent
  by_cases same : u = t
  · subst same
    obtain ⟨pending, rfl⟩ := h.stage.of_holding holding
    cases hm with
    | enter held =>
      rw [holding] at held
      cases held
      refine ⟨?_, h.groups, h.others⟩
      rw [show ((f.calls.setStack u [.serving () group]).note (.called u () group)).pending u =
        some group from pending]
      rw [Pool.Step.waitingJob, if_pos rfl] at waiting
      exact .serving (by simp) waiting
  · have other : (Batch.Calls.Move.enter u : Batch.Calls.Move R Unit).caller? ≠ some t := by
      simpa [Batch.Calls.Move.caller?] using same
    have ne : Thread.client u ≠ Thread.client t := fun h => same (Thread.client.inj h)
    rw [Pool.Step.waitingJob, if_neg ne] at waiting
    exact h.of_other (g := ⟨calls, Pool.Play.record { f.play with pool := q } []⟩) hm other waiting rfl

/-- The pool answers a thread, which returns from the handler. -/
theorem Linked.leave_next {u : Nat} {outcome : Outcome} {poolStep : Pool.Step (Job (List R))}
    {play : Pool.Play (Job (List R))} (h : Linked f t) (moved : f.play.step? poolStep = some play)
    (returned : returned? poolStep = some (u, outcome)) :
    Linked ({ f with play := play }.leave u outcome) t := by
  obtain ⟨q, events, poolMoves, rfl⟩ := Pool.Play.moves_of_step? moved
  obtain ⟨job, waited, after⟩ := answer_of_returned poolMoves returned
  obtain ⟨waiting, answered⟩ := after t
  have answers := answers_next (f := f)
    (g := leave { f with play := { f.play with pool := q }.record events } u outcome) rfl
    (play_leave _ _ _) t
  rw [answered] at answers
  by_cases same : u = t
  · subst same
    obtain ⟨group, pending, stack, rfl⟩ := h.stage.of_waiting waited
    rw [if_pos rfl] at waiting answers
    obtain ⟨_, rest, served, -, left⟩ | ⟨not, -⟩ :=
      leave_cases { f with play := { f.play with pool := q }.record events } u outcome
    · have served : f.calls.stack u = .serving () _ :: rest := served
      rw [stack] at served
      cases served
      refine h.answered pending (congrArg Feed.calls left) ?_ answers
      rw [Feed.pool, play_leave]
      exact waiting
    · exact absurd stack (not _ _)
  · have ne : t ≠ u := fun h => same h.symm
    rw [if_neg same] at waiting answers
    rw [List.append_nil] at answers
    obtain ⟨stack, pending, results⟩ := leave_frame
      (f := { f with play := { f.play with pool := q }.record events }) ne outcome
    refine h.congr stack pending results ?_ answers
    rw [Feed.pool, play_leave]
    exact waiting

/-- **A move keeps the calls of a thread linked.** -/
theorem Linked.next {capacity : Nat} (h : Linked f t) (kept : f.calls.Conserved capacity handlers)
    (hm : Moves f step g) (own : step.direct? = none) : Linked g t := by
  have calls {m : Batch.Calls.Move R Unit} {d : Batch.Calls R Unit} (call : m.caller? ≠ none)
      (move : f.calls.move? m = some d) : Batch.Calls.Moves handlers f.calls m d :=
    kept.of_move? call move
  cases hm with
  | push free move =>
    exact h.begun_next free (calls (by simp [Batch.Calls.Move.caller?]) move) (.inl ⟨_, rfl⟩)
  | flush free move =>
    exact h.begun_next free (calls (by simp [Batch.Calls.Move.caller?]) move) (.inr rfl)
  | enter holding move enqueued =>
    exact h.enter_next holding (calls (by simp [Batch.Calls.Move.caller?]) move) enqueued
  | answer moved returned => exact h.leave_next moved returned
  | pool allowed moved other =>
    obtain ⟨q, events, moves, rfl⟩ := Pool.Play.moves_of_step? moved
    obtain ⟨waiting, none⟩ := answer_of_other moves other own t
    refine h.congr rfl rfl rfl waiting ?_
    rw [answers_next rfl rfl, none, List.append_nil]

/-! ## Runs -/

/-- **After every run the calls of the threads are linked**, if only the batch feeds the pool. -/
theorem linked {batchSize : Nat} {p : Pool (Job (List R))} {steps : List (Step R)} (hp : p.Fresh)
    (hs : (ofPool batchSize p).run? steps = some f) (own : ∀ step ∈ steps, step.direct? = none)
    (t : Nat) : Linked f t := by
  refine run_induction
    (motive := fun steps f => (∀ step ∈ steps, step.direct? = none) → Linked f t) ?_ ?_ hs own
  · intro _
    have idle : (ofPool batchSize p).pool.waitingJob? (.client t) = none := by
      simp [ofPool, Feed.pool, Pool.waitingJob?, Pool.waitingOf?, hp.waiting]
    exact ⟨.free rfl idle, rfl, fun x hx => by cases hx⟩
  · intro steps f step g hf ih hm own
    simp only [List.mem_append, List.mem_singleton] at own
    exact (ih fun step h => own step (.inl h)).next (conserved hf).1 hm (own step (.inr rfl))

end Feed

end BatchPool
