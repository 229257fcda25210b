import BatchPool.Flow.Run
import BatchPool.Proofs.Flow.Moves
import BatchPool.Proofs.Pool.Steered
import BatchPool.Proofs.Pool.Toil
import Mathlib.Order.Lattice.Nat

/-!
# How many steps a flow makes

The commands of the reading thread bring in all that there is to be done. A job of the pool brings in a
task, and a task the line of the writer, so a flow whose tasks are bounded comes to its end.

* `Task.Within`, `Task.length`: how many steps on what the workers share a task makes.
* `Flow.toil`: how many steps a flow has still in it, and `Moves.toil_next`: every step is one less.
* `Flow.length_le`: so no run makes more steps than the flow has in it.
-/

namespace BatchPool

variable {R S L : Type}

/-! ## Tasks -/

/-- The task makes at most so many steps on what the workers share. -/
def Task.Within : Nat → Task S L → Prop
  | n + 1, .act step => ∀ s, (step s).1.Within n
  | 0, .act _ => False
  | _, .call _ | _, .stop _ => True

/-- How many steps the task makes at most. -/
noncomputable def Task.length (task : Task S L) : Nat := sInf {n | task.Within n}

theorem Task.length_le {task : Task S L} {n : Nat} (h : task.Within n) : task.length ≤ n :=
  Nat.sInf_le h

/-- Behind a step there is less to do, and still within a bound. -/
theorem Task.length_act_lt {act : S → Task S L × S} {n : Nat} (h : (Task.act act).Within n) (s : S) :
    (act s).1.length < (Task.act act).length ∧ (act s).1.Within (n - 1) := by
  have least : (Task.act act).Within (Task.act act).length :=
    Nat.sInf_mem (s := {n | (Task.act act).Within n}) ⟨n, h⟩
  constructor
  · cases here : (Task.act act).length with
    | zero => rw [here] at least; exact least.elim
    | succ k =>
      rw [here] at least
      exact Nat.lt_succ_of_le (Task.length_le (least s))
  · cases n with
    | zero => exact h.elim
    | succ n => exact h s

/-! ## The feed -/

namespace Feed

/-- The steps that come from a call of the batch: the handler is called, and enqueues its job. -/
def frameToil (load : Nat) : Batch.Frame R Unit → Nat
  | .holding _ _ => load + 9
  | .serving _ _ => 0

/-- The steps that the reading thread and the pool have still to make. -/
def toil (load : Nat) (f : Feed R) : Nat :=
  f.pool.toil load + ((f.calls.stack 0).map (frameToil load)).sum

/-- The step, and the steps that come from it. -/
def Step.price (load : Nat) : Step R → Nat
  | .push _ _ | .flush _ => load + 10
  | .enter _ => 0
  | .pool step => step.price load

variable {f g : Feed R} {step : Step R} {load : Nat}

/-- A call of the batch takes out at most one group. -/
theorem stack_settle (c : Batch.Calls R Unit) (t : Nat) (effect : Effect R Unit) :
    (c.settle t effect).stack t = c.stack t ∨
      ∃ group, (c.settle t effect).stack t = .holding () group :: c.stack t := by
  cases effect with
  | refused | kept => exact .inl rfl
  | taken handler group => exact .inr ⟨group, by simp [Batch.Calls.settle]⟩

theorem stack_of_call {calls : Batch.Calls R Unit} {m : Batch.Calls.Move R Unit} {t : Nat}
    (move : f.calls.move? m = some calls) (begins : (∃ record, m = .push t record) ∨ m = .flush t) :
    calls.stack t = f.calls.stack t ∨
      ∃ group, calls.stack t = .holding () group :: f.calls.stack t := by
  obtain ⟨record, rfl⟩ | rfl := begins <;> simp only [Batch.Calls.move?] at move <;> split at move
  · cases move
    split <;> exact stack_settle ..
  · cases move
  · cases move
    exact stack_settle ..
  · cases move

theorem stack_of_enter {calls : Batch.Calls R Unit} {t : Nat} {group : List R}
    {rest : List (Batch.Frame R Unit)} (holding : f.calls.stack t = .holding () group :: rest)
    (move : f.calls.move? (.enter t) = some calls) :
    calls.stack t = .serving () group :: rest := by
  simp only [Batch.Calls.move?, holding] at move
  cases move
  simp

theorem frames_of_call (load : Nat) {calls : Batch.Calls R Unit} {m : Batch.Calls.Move R Unit}
    {t : Nat} (move : f.calls.move? m = some calls) (begins : (∃ record, m = .push t record) ∨ m = .flush t) :
    ((calls.stack t).map (frameToil load)).sum ≤
      ((f.calls.stack t).map (frameToil load)).sum + (load + 9) := by
  obtain same | ⟨group, one⟩ := stack_of_call move begins
  · rw [same]
    omega
  · rw [one]
    simp only [List.map_cons, List.sum_cons, frameToil]
    omega

/-- The return of a call brings in nothing. -/
theorem frames_leave_le (load : Nat) (f : Feed R) (t : Nat) (outcome : Outcome) :
    (((leave f t outcome).calls.stack 0).map (frameToil load)).sum ≤
      ((f.calls.stack 0).map (frameToil load)).sum := by
  obtain ⟨group, rest, serving, -, left⟩ | ⟨-, left⟩ := leave_cases f t outcome
  · rw [left, Batch.Calls.stack_note]
    by_cases mine : 0 = t
    · subst mine
      rw [Batch.Calls.stack_setStack_self, serving]
      simp [frameToil]
    · rw [Batch.Calls.stack_setStack_ne _ mine]
  · rw [left]

/-- **A step of the feed uses up what the reading thread has brought in.** A job that a worker takes is
no load any more. -/
theorem toil_next (load : Nat) (hm : Moves f step g) (h : f.pool.Tidy) (read : step.Read) :
    ∃ new, g.play.began.length = f.play.began.length + new ∧
      g.toil load + (load * new + 1) ≤ f.toil load + step.price load := by
  cases hm with
  | push _ move =>
    obtain rfl := read
    have frames := frames_of_call load move (.inl ⟨_, rfl⟩)
    refine ⟨0, rfl, ?_⟩
    simp only [toil, pool, Step.price]
    omega
  | flush _ move =>
    obtain rfl := read
    have frames := frames_of_call load move (.inr rfl)
    refine ⟨0, rfl, ?_⟩
    simp only [toil, pool, Step.price]
    omega
  | @enter t group rest calls play holding move enqueued =>
    obtain rfl := read
    obtain ⟨new, began, less⟩ := Pool.Play.toil_next load h enqueued
    refine ⟨new, began, ?_⟩
    have frames := stack_of_enter holding move
    simp only [toil, pool, frames, holding, List.map_cons, List.sum_cons, frameToil, Step.price,
      Pool.Step.price] at less ⊢
    omega
  | @answer poolStep play t outcome moved =>
    obtain ⟨new, began, less⟩ := Pool.Play.toil_next load h moved
    refine ⟨new, by simpa using began, ?_⟩
    have frames := frames_leave_le load { f with play := play } t outcome
    simp only [toil, pool, play_leave, Step.price] at frames ⊢
    omega
  | pool _ moved =>
    obtain ⟨new, began, less⟩ := Pool.Play.toil_next load h moved
    refine ⟨new, began, ?_⟩
    simp only [toil, pool, Step.price]
    omega

/-- A worker that takes a job begins it. -/
theorem began_of_taken {poolStep : Pool.Step (Job (List R))} {i : Nat} {t : Ticket (Job (List R))}
    (h : f.pool.Tidy) (free : f.pool.executing? i = none) (hm : Moves f (.pool poolStep) g)
    (taken : g.pool.executing? i = some t) :
    g.play.began.length = f.play.began.length + 1 := by
  obtain ⟨-, other⟩ | ⟨step, moved, -⟩ := hm.play_cases
  · exact absurd rfl (other _)
  obtain ⟨q, es, hq, same⟩ := Pool.Play.moves_of_step? moved
  have began : g.play.began = f.play.began ++ es.filterMap Pool.Event.began? := by
    rw [same]
    exact Pool.Play.events_next ..
  have pool : g.pool = q := by
    rw [Feed.pool, same]
    rfl
  rw [pool] at taken
  rw [began, List.length_append]
  obtain ⟨idle, -⟩ | ⟨j, u, -, -, -, one⟩ | ⟨j, outcome, panics, -, ended, -⟩ :=
    h.sound.work_cases hq
  · rw [idle, free] at taken
    cases taken
  · rw [one, List.length_singleton]
  · rw [ended] at taken
    by_cases mine : i = j
    · rw [mine, Function.update_self] at taken
      cases taken
    · rw [Function.update_of_ne mine, free] at taken
      cases taken

end Feed

/-! ## The writer -/

namespace Pool

variable {J : Type}

/-- The call of a thread that returns by a step, as its job is in the queue, or was refused. -/
def Step.answered? : Step J → Option Thread
  | .insert caller | .rollback caller => some caller
  | _ => none

variable {p q : Pool J} {step : Step J} {events : List (Event J)} {caller thread : Thread}

/-- A thread waits for room until it has its answer. -/
theorem Moves.waits_next (hm : Moves p step q events) (other : step.answered? ≠ some thread)
    (waits : (p.waitingJob? thread).isSome = true) : (q.waitingJob? thread).isSome = true := by
  rw [hm.waitingJob_next thread]
  cases step with
  | enqueue caller job =>
    simp only [Step.waitingJob]
    split
    · rfl
    · exact waits
  | insert caller | rollback caller =>
    have ne : caller ≠ thread := fun same => other (congrArg some same)
    rwa [Step.waitingJob, if_neg ne]
  | _ => exact waits

theorem callStep?_answered (h : p.callStep? caller = some step) (other : thread ≠ caller) :
    step.answered? ≠ some thread := by
  unfold callStep? at h
  intro mine
  split at h
  · split at h
    · cases h; exact other (Option.some.inj mine).symm
    · split at h <;> cases h
      · cases mine
      · exact other (Option.some.inj mine).symm
  · split at h
    any_goals cases h; cases mine
    split at h
    · split at h <;> cases h
      cases mine
    · cases h

theorem loopStep?_answered (h : p.loopStep? false = some step) : step.answered? = none := by
  unfold loopStep? at h
  split at h <;> cases h <;> rfl

theorem workerStep?_answered {i : Nat} (h : p.workerStep? i = some step) : step.answered? = none := by
  unfold workerStep? at h
  split at h <;> cases h <;> rfl

/-- A thread that is in no call does not wait for room. -/
theorem waitingJob?_of_callStep? (h : p.callStep? caller = none) : p.waitingJob? caller = none := by
  unfold callStep? at h
  split at h
  · split at h
    · cases h
    · split at h <;> cases h
  · next call => rw [waitingJob?, call, Option.map_none]

theorem price_of_continues (load : Nat) (h : step.continues = true) : step.price load = 0 := by
  cases step with
  | enqueue | offer | close | start | shutDown | idle | drop => cases h
  | _ => rfl

end Pool

namespace Flow

/-- The step of a command, and the steps that come from it. -/
def commandToil (load : Nat) : Command R → Nat
  | .startWriter | .startPool => 2
  | .push _ | .flush => load + 10
  | .closePool | .idlePool | .idleWriter => 1
  | .last => load + 9
  | .shutPool | .shutWriter => 4

/-- The steps that a worker has still to make for its task, and those that come from the line for the
writer, if the writer does not know of it yet. -/
noncomputable def taskToil (w : Pool (Job L)) (x : Nat × Task S L) : Nat :=
  match x.2 with
  | .stop _ => 0
  | task => task.length + if (w.waitingJob? (.client (x.1 + 1))).isSome then 0 else 9

/-- The steps that a flow has still to make. -/
noncomputable def toil (load : Nat) (f : Flow R S L) : Nat :=
  (f.commands.map (commandToil load)).sum + f.feed.toil load +
    (f.tasks.map (taskToil f.writer.pool)).sum + f.writer.pool.toil 0

/-- What a bound on the steps rests on. -/
structure Tidy (f : Flow R S L) : Prop where
  pool : f.feed.pool.Tidy
  writer : f.writer.pool.Tidy
  tasks : ∀ x ∈ f.tasks, ∃ n, x.2.Within n

variable {plan : Plan R S L} {f g : Flow R S L} {actor : Actor} {load n : Nat}

theorem Tidy.tasks_next (h : f.Tidy) (hm : Moves plan f actor g)
    (within : ∀ i job, (plan.task i job).Within n) : ∀ x ∈ g.tasks, ∃ n, x.2.Within n := by
  have set : ∀ {i : Nat} {task : Task S L}, (∃ n, task.Within n) →
      ∀ x ∈ (i, task) :: f.tasks.filter fun x => x.1 ≠ i, ∃ n, x.2.Within n := by
    intro i task new x hx
    obtain rfl | old := List.mem_cons.1 hx
    · exact new
    · exact h.tasks x (List.mem_filter.1 old).1
  cases hm with
  | @command command _ _ _ _ begun =>
    cases command <;> obtain ⟨_, -, rfl⟩ := Option.map_eq_some_iff.1 begun <;> exact h.tasks
  | call =>
    unfold afterCall
    split
    · split <;> exact h.tasks
    · exact h.tasks
  | act _ task =>
    obtain ⟨m, bound⟩ := h.tasks _ (Pool.mem_of_lookup task)
    exact set ⟨_, (Task.length_act_lt bound f.shared).2⟩
  | wait =>
    unfold afterWrite
    split
    · exact set ⟨0, trivial⟩
    · exact set ⟨0, trivial⟩
    · exact h.tasks
  | conclude => exact fun x hx => h.tasks x (List.mem_filter.1 hx).1
  | receive => exact set ⟨n, within _ _⟩
  | write =>
    unfold afterLine
    split <;> exact h.tasks
  | _ => exact h.tasks

theorem Tidy.next (h : f.Tidy) (hm : Moves plan f actor g)
    (within : ∀ i job, (plan.task i job).Within n) : g.Tidy where
  pool := by
    obtain same | ⟨step, moved, -⟩ := hm.feed_cases
    · exact same ▸ h.pool
    · obtain ⟨same, -⟩ | ⟨step, moved, -⟩ := (Feed.Moves.of_step? moved).play_cases
      · exact show g.feed.play.pool.Tidy from same ▸ h.pool
      · exact Pool.Play.tidy_next h.pool moved
  writer := by
    obtain same | ⟨step, moved⟩ := hm.writer_cases
    · exact same ▸ h.writer
    · exact Pool.Play.tidy_next h.writer moved
  tasks := h.tasks_next hm within

/-! ## Tasks of workers -/

section

variable {p q : Pool (Job L)} {step : Pool.Step (Job L)} {events : List (Pool.Event (Job L))}
  {l : List (Nat × Task S L)}

/-- What a task comes to does not grow while its worker waits for the writer. -/
theorem taskToil_le {x : Nat × Task S L} (hm : Pool.Moves p step q events)
    (other : step.answered? ≠ some (.client (x.1 + 1))) : taskToil q x ≤ taskToil p x := by
  obtain ⟨i, task⟩ := x
  have waits := hm.waits_next other
  cases task with
  | stop => exact Nat.le_refl 0
  | act | call =>
    simp only [taskToil]
    cases before : (p.waitingJob? (.client (i + 1))).isSome with
    | true => rw [waits before]
    | false => split <;> simp

theorem sum_taskToil_le (hm : Pool.Moves p step q events)
    (other : ∀ x ∈ l, step.answered? ≠ some (.client (x.1 + 1))) :
    (l.map (taskToil q)).sum ≤ (l.map (taskToil p)).sum :=
  List.sum_le_sum fun x hx => taskToil_le hm (other x hx)

/-- A task within a bound, with the line for the writer. -/
theorem taskToil_le_of_within {i : Nat} {task : Task S L} (h : task.Within n) :
    taskToil p (i, task) ≤ n + 9 := by
  have := Task.length_le h
  cases task with
  | stop => exact Nat.zero_le _
  | act | call =>
    simp only [taskToil]
    split <;> omega

/-- A step on what the workers share is one less. -/
theorem taskToil_act {i : Nat} {act : S → Task S L × S} (h : (Task.act act).Within n) (s : S) :
    taskToil p (i, (act s).1) + 1 ≤ taskToil p (i, .act act) := by
  have less := (Task.length_act_lt h s).1
  generalize (act s).1 = task at less
  cases task with
  | stop =>
    simp only [taskToil]
    omega
  | act | call =>
    simp only [taskToil]
    omega

/-- A call of the writer by a worker is one less, and it brings in the line. -/
theorem sum_taskToil_ask {i : Nat} {line : L} (hm : Pool.Moves p step q events)
    (call : l.lookup i = some (.call line))
    (asks : step = .enqueue (.client (i + 1)) (.ofContext line))
    (free : p.waitingJob? (.client (i + 1)) = none) :
    (l.map (taskToil q)).sum + 9 ≤ (l.map (taskToil p)).sum := by
  have le : ∀ x : Nat × Task S L, taskToil q x ≤ taskToil p x :=
    fun x => taskToil_le hm (by simp [asks, Pool.Step.answered?])
  induction l with
  | nil => cases call
  | cons x rest ih =>
    obtain ⟨j, task⟩ := x
    by_cases same : i = j
    · subst same
      rw [List.lookup_cons_self] at call
      cases call
      have others : (rest.map (taskToil q)).sum ≤ (rest.map (taskToil p)).sum :=
        List.sum_le_sum fun x _ => le x
      have now : q.waitingJob? (.client (i + 1)) = some (.ofContext line) := by
        rw [hm.waitingJob_next, asks, Pool.Step.waitingJob, if_pos rfl]
      have before : taskToil p (i, (.call line : Task S L)) = (.call line : Task S L).length + 9 := by
        simp [taskToil, free]
      have after : taskToil q (i, (.call line : Task S L)) = (.call line : Task S L).length := by
        simp [taskToil, now]
      simp only [List.map_cons, List.sum_cons]
      omega
    · have ne : (i == j) = false := by simpa using same
      rw [List.lookup_cons, ne] at call
      have := ih call
      have := le (j, task)
      simp only [List.map_cons, List.sum_cons]
      omega

end

/-! ## Steps -/

theorem Tidy.feed_step (load : Nat) {step : Feed.Step R} {feed : Feed R} (h : f.Tidy)
    (moved : f.feed.step? step = some feed) (read : step.Read) :
    feed.toil load + 1 ≤ f.feed.toil load + step.price load := by
  obtain ⟨new, -, less⟩ := Feed.toil_next load (.of_step? moved) h.pool read
  omega

theorem Tidy.writer_step {step : Pool.Step (Job L)} {writer : Pool.Play (Job L)} (h : f.Tidy)
    (moved : f.writer.step? step = some writer) :
    writer.pool.toil 0 + 1 ≤ f.writer.pool.toil 0 + step.price 0 := by
  obtain ⟨new, -, less⟩ := Pool.Play.toil_next 0 h.writer moved
  omega

/-- A step of the writer that answers none of these workers. -/
theorem tasks_step {step : Pool.Step (Job L)} {writer : Pool.Play (Job L)}
    {l : List (Nat × Task S L)} (moved : f.writer.step? step = some writer)
    (other : ∀ x ∈ l, step.answered? ≠ some (.client (x.1 + 1))) :
    (l.map (taskToil writer.pool)).sum ≤ (l.map (taskToil f.writer.pool)).sum := by
  obtain ⟨q, es, hm, rfl⟩ := Pool.Play.moves_of_step? moved
  exact sum_taskToil_le hm other

/-- A worker leaves its task for another one. -/
theorem tasks_set {i : Nat} {task : Task S L} (task' : Task S L) (here : f.task? i = some task)
    (less : taskToil f.writer.pool (i, task') + 1 ≤ taskToil f.writer.pool (i, task)) :
    ((f.setTask i task').tasks.map (taskToil f.writer.pool)).sum + 1 ≤
      (f.tasks.map (taskToil f.writer.pool)).sum := by
  have others := Pool.sum_map_filter_key (taskToil f.writer.pool) here
  simp only [setTask, List.map_cons, List.sum_cons]
  omega

theorem tasks_filter (f : Flow R S L) (i : Nat) :
    ((f.tasks.filter fun x => x.1 ≠ i).map (taskToil f.writer.pool)).sum ≤
      (f.tasks.map (taskToil f.writer.pool)).sum :=
  (List.filter_sublist.map _).sum_le_sum fun _ _ => Nat.zero_le _

/-- A command is begun. -/
theorem Tidy.command_toil {command : Command R} {rest : List (Command R)} (h : f.Tidy)
    (commands : f.commands = command :: rest) (begun : f.begin? command = some g) :
    { g with commands := rest }.toil load + 1 ≤ f.toil load := by
  have now : (f.commands.map (commandToil load)).sum =
      commandToil load command + (rest.map (commandToil load)).sum := by
    rw [commands, List.map_cons, List.sum_cons]
  cases command with
  | startWriter | idleWriter | shutWriter =>
    obtain ⟨writer, moved, rfl⟩ := Option.map_eq_some_iff.1 begun
    have writerLess := h.writer_step moved
    have tasksLess := tasks_step (l := f.tasks) moved (by simp [Pool.Step.answered?])
    simp only [toil, now, commandToil, Pool.Step.price] at *
    omega
  | startPool | closePool | idlePool | last | shutPool =>
    obtain ⟨feed, moved, rfl⟩ := Option.map_eq_some_iff.1 begun
    have feedLess := h.feed_step load moved trivial
    simp only [toil, now, commandToil, Feed.Step.price, Pool.Step.price] at *
    omega
  | push | flush =>
    obtain ⟨feed, moved, rfl⟩ := Option.map_eq_some_iff.1 begun
    have feedLess := h.feed_step load moved rfl
    simp only [toil, now, commandToil, Feed.Step.price] at *
    omega

/-- The pool goes on with what has begun. -/
theorem Tidy.continue_toil (load : Nat) {step : Pool.Step (Job (List R))} {feed : Feed R}
    (h : f.Tidy)
    (moved : f.feed.step? (.pool step) = some feed) (continues : step.continues = true) :
    { f with feed := feed }.toil load + 1 ≤ f.toil load := by
  have less := h.feed_step load moved trivial
  have free : (Feed.Step.pool step).price load = 0 := Pool.price_of_continues load continues
  simp only [toil, free] at *
  omega

/-- The writer goes on with what has begun, and answers no worker. -/
theorem Tidy.writer_toil (load : Nat) {step : Pool.Step (Job L)} {writer : Pool.Play (Job L)}
    (h : f.Tidy)
    (moved : f.writer.step? step = some writer) (continues : step.continues = true)
    (other : ∀ i, step.answered? ≠ some (.client (i + 1))) :
    { f with writer := writer }.toil load + 1 ≤ f.toil load := by
  have writerLess := h.writer_step moved
  have tasksLess := tasks_step (l := f.tasks) moved fun x _ => other x.1
  have free := Pool.price_of_continues 0 continues
  simp only [toil, free] at *
  omega

/-- The writer has its answer for a worker, and the worker goes on. -/
theorem Tidy.answer_toil {step : Pool.Step (Job L)} {writer : Pool.Play (Job L)} {i : Nat}
    (outcome : Outcome) (h : f.Tidy) (moved : f.writer.step? step = some writer)
    (continues : step.continues = true) (answered : step.answered? = some (.client (i + 1))) :
    ({ f with writer := writer }.setTask i (.stop outcome)).toil load + 1 ≤ f.toil load := by
  have writerLess := h.writer_step moved
  have free := Pool.price_of_continues 0 continues
  have tasksLess := tasks_step (l := f.tasks.filter fun x => x.1 ≠ i) moved fun x hx same => by
    rw [answered] at same
    cases same
    simp at hx
  have fewer := tasks_filter f i
  have stopped : taskToil writer.pool (i, (.stop outcome : Task S L)) = 0 := rfl
  simp only [toil, setTask, List.map_cons, List.sum_cons, free, stopped] at *
  omega

theorem Tidy.wait_toil {step : Pool.Step (Job L)} {writer : Pool.Play (Job L)} {i : Nat}
    (h : f.Tidy) (next : f.writer.pool.callStep? (.client (i + 1)) = some step)
    (moved : f.writer.step? step = some writer) :
    ({ f with writer := writer }.afterWrite i step).toil load + 1 ≤ f.toil load := by
  have continues := (Pool.callStep?_continues next).1
  have mine : ∀ caller, step.answered? = some caller → caller = .client (i + 1) := by
    intro caller answered
    by_contra other
    exact Pool.callStep?_answered next other answered
  cases step with
  | insert caller | rollback caller =>
    obtain rfl := mine caller rfl
    exact h.answer_toil _ moved continues rfl
  | _ => exact h.writer_toil _ moved continues (by simp [Pool.Step.answered?])

/-- Behind a call of the pool there are no more commands than before. -/
theorem toil_afterCall_le (load : Nat) (step : Pool.Step (Job (List R))) :
    (f.afterCall plan step).toil load ≤ f.toil load := by
  unfold afterCall
  split
  · split
    · simp only [toil, List.map_nil, List.sum_nil]
      omega
    · exact Nat.le_refl _
  · exact Nat.le_refl _

/-- A worker calls the writer. -/
theorem Tidy.ask_toil {i : Nat} {line : L} {writer : Pool.Play (Job L)} (h : f.Tidy)
    (task : f.task? i = some (.call line))
    (free : f.writer.pool.callStep? (.client (i + 1)) = none)
    (moved : f.writer.step? (.enqueue (.client (i + 1)) (.ofContext line)) = some writer) :
    { f with writer := writer }.toil load + 1 ≤ f.toil load := by
  have writerLess := h.writer_step moved
  obtain ⟨q, es, hq, rfl⟩ := Pool.Play.moves_of_step? moved
  have tasksLess := sum_taskToil_ask hq task rfl (Pool.waitingJob?_of_callStep? free)
  simp only [toil, Pool.Play.pool_next, Pool.Step.price] at *
  omega

/-- A worker takes a job, and has a task from there on. -/
theorem Tidy.receive_toil {i : Nat} {t : Ticket (Job (List R))} {step : Pool.Step (Job (List R))}
    {feed : Feed R} {task : Task S L} (h : f.Tidy) (within : task.Within n)
    (free : f.feed.pool.executing? i = none) (next : f.feed.pool.workerStep? i = some step)
    (moved : f.feed.step? (.pool step) = some feed) (taken : feed.pool.executing? i = some t) :
    ({ f with feed := feed }.setTask i task).toil (n + 9) + 1 ≤ f.toil (n + 9) := by
  have hq := Feed.Moves.of_step? moved
  obtain ⟨new, began, feedLess⟩ := Feed.toil_next (n + 9) hq h.pool trivial
  obtain rfl : new = 1 := by
    have := Feed.began_of_taken h.pool free hq taken
    omega
  have free : (Feed.Step.pool step).price (n + 9) = 0 :=
    Pool.price_of_continues _ (Pool.workerStep?_continues next).1
  have now := taskToil_le_of_within (p := f.writer.pool) (i := i) within
  have fewer := tasks_filter f i
  simp only [toil, setTask, List.map_cons, List.sum_cons, free, Nat.mul_one] at *
  omega

/-- **A step of a flow is one less.** -/
theorem Moves.toil_next (hm : Moves plan f actor g) (h : f.Tidy)
    (within : ∀ i job, (plan.task i job).Within n) :
    g.toil (n + 9) + 1 ≤ f.toil (n + 9) := by
  cases hm with
  | command _ commands begun => exact h.command_toil commands begun
  | enter holding moved =>
    have feedLess := h.feed_step (n + 9) moved rfl
    simp only [toil, Feed.Step.price] at *
    omega
  | call next moved =>
    have less := h.continue_toil (n + 9) moved (Pool.callStep?_continues next).1
    exact (Nat.add_le_add_right (toil_afterCall_le (n + 9) _) 1).trans less
  | writerCall next moved =>
    exact h.writer_toil _ moved (Pool.callStep?_continues next).1
      fun i => Pool.callStep?_answered next (by simp)
  | dispatch next moved => exact h.continue_toil _ moved (Pool.loopStep?_continues next).1
  | work _ next moved => exact h.continue_toil _ moved (Pool.workerStep?_continues next).1
  | writerDispatch next moved =>
    exact h.writer_toil _ moved (Pool.loopStep?_continues next).1
      (by simp [Pool.loopStep?_answered next])
  | writerWork _ next moved =>
    exact h.writer_toil _ moved (Pool.workerStep?_continues next).1
      (by simp [Pool.workerStep?_answered next])
  | write executing moved =>
    have less := h.writer_toil (n + 9) moved rfl (by simp [Pool.Step.answered?])
    unfold afterLine
    split <;> exact less
  | @act i t act executing task =>
    obtain ⟨m, bound⟩ := h.tasks _ (Pool.mem_of_lookup task)
    have less := tasks_set (act f.shared).1 task (taskToil_act bound f.shared)
    simp only [toil, setTask] at *
    omega
  | ask executing task free moved => exact h.ask_toil task free moved
  | wait executing task next moved => exact h.wait_toil next moved
  | @conclude i t outcome feed executing task moved =>
    have less := h.continue_toil (n + 9) moved rfl
    have fewer := tasks_filter f i
    simp only [toil, endTask] at *
    omega
  | receive free next moved taken => exact h.receive_toil (within _ _) free next moved taken

/-! ## Runs -/

/-- **A flow makes no more steps than it has still in it.** -/
theorem length_le {actors : List Actor} (h : f.Tidy)
    (within : ∀ i job, (plan.task i job).Within n) (hr : f.run? plan actors = some g) :
    g.toil (n + 9) + actors.length ≤ f.toil (n + 9) := by
  induction actors generalizing f with
  | nil =>
    cases hr
    exact Nat.le_refl _
  | cons actor rest ih =>
    simp only [run?] at hr
    split at hr
    · next k hk =>
      have moves := Moves.of_step? hk
      have now := moves.toil_next h within
      have later := ih (h.next moves within) hr
      rw [List.length_cons]
      omega
    · cases hr

end Flow

end BatchPool
