import BatchPool.Proofs.Flow.Moves

/-!
# The work of a flow

What the workers do with the groups does not depend on the queues in between: a worker takes a job,
does its task step by step, hands its line to the writer, and ends.

* `Flow.Work`: what the workers share and are at, the jobs that they were started on, and the lines
  that the writer was given.
* `Work.Moves`: what a step of the flow is for the work.
* `Work.Asks`: a worker calls the writer. It does so until the writer has its line (`Moves.asks`).
* `Work.Manned`: every worker that is at work has its task.
-/

namespace BatchPool

namespace Flow

variable {R S L : Type}

/-- The work of a flow. -/
structure Work (R S L : Type) where
  shared : S
  tasks : List (Nat × Task S L)
  executing : Nat → Option (Ticket (Job (List R)))
  began : List (Job (List R))
  sent : List L

/-- The work of a flow, without the queues. -/
def work (f : Flow R S L) : Work R S L where
  shared := f.shared
  tasks := f.tasks
  executing := f.feed.pool.executing?
  began := f.feed.play.began.map (·.2.job)
  sent := f.writer.accepted.map (·.job.context)

namespace Work

/-- The tasks with another one for a worker. -/
def setTask (v : Work R S L) (i : Nat) (task : Task S L) : Work R S L :=
  { v with tasks := (i, task) :: v.tasks.filter fun t => t.1 ≠ i }

/-- The tasks without one for a worker. -/
def endTask (v : Work R S L) (i : Nat) : Work R S L :=
  { v with tasks := v.tasks.filter fun t => t.1 ≠ i }

/-- The moves of the work. -/
inductive Moves (plan : Plan R S L) (v : Work R S L) : Work R S L → Prop where
  /-- Nothing changes. -/
  | still : Moves plan v v
  /-- A worker does a step on what the workers share. -/
  | act {i : Nat} {act : S → Task S L × S} (task : v.tasks.lookup i = some (.act act)) :
    Moves plan v ({ v with shared := (act v.shared).2 }.setTask i (act v.shared).1)
  /-- The writer is given the line of a worker. -/
  | send {i : Nat} {line : L} (task : v.tasks.lookup i = some (.call line)) :
    Moves plan v ({ v with sent := v.sent ++ [line] }.setTask i (.stop .done))
  /-- A worker ends. -/
  | conclude {i : Nat} {outcome : Outcome} (task : v.tasks.lookup i = some (.stop outcome)) :
    Moves plan v ({ v with executing := Function.update v.executing i none }.endTask i)
  /-- A worker takes a job. -/
  | receive {i : Nat} {t : Ticket (Job (List R))} (free : v.executing i = none) :
    Moves plan v ({ v with
      executing := Function.update v.executing i (some t)
      began := v.began ++ [t.job] }.setTask i (plan.task i t.job))

/-- A worker calls the writer, which knows the call by its caller and its job. -/
def Asks (v : Work R S L) (caller : Thread) (job : Job L) : Prop :=
  ∃ i line t, caller = .client (i + 1) ∧ job = .ofContext line ∧
    v.tasks.lookup i = some (.call line) ∧ v.executing i = some t

variable {plan : Plan R S L} {v v' : Work R S L} {i j : Nat} {task : Task S L}

/-! ## Small facts -/

theorem lookup_filter_ne {l : List (Nat × Task S L)} (other : j ≠ i) :
    (l.filter fun t => t.1 ≠ i).lookup j = l.lookup j := by
  have same : (fun t : Nat × Task S L => decide (t.1 ≠ i)) = fun t => t.1 != i := by
    funext t
    by_cases here : t.1 = i <;> simp [here]
  rw [same, Batch.Calls.lookup_filter_ne l other]

theorem lookup_setTask (other : j ≠ i) : (v.setTask i task).tasks.lookup j = v.tasks.lookup j := by
  have ne : (j == i) = false := by simpa using other
  rw [setTask, List.lookup_cons, ne]
  exact lookup_filter_ne other

theorem Asks.setTask {caller : Thread} {job : Job L} (h : v.Asks caller job)
    (other : caller ≠ .client (i + 1)) : (v.setTask i task).Asks caller job := by
  obtain ⟨j, line, t, rfl, rfl, call, busy⟩ := h
  have ne : j ≠ i := fun same => other (by rw [same])
  exact ⟨j, line, t, rfl, rfl, (lookup_setTask ne).trans call, busy⟩

/-- A worker that calls the writer goes on calling it until the writer has its line. -/
theorem Moves.asks (hm : Moves plan v v') {caller : Thread} {job : Job L} (h : v.Asks caller job)
    (same : v'.sent = v.sent) : v'.Asks caller job := by
  obtain ⟨j, line, t, rfl, rfl, call, busy⟩ := h
  cases hm with
  | still => exact ⟨j, line, t, rfl, rfl, call, busy⟩
  | send => simp [setTask] at same
  | @act i act task =>
    have other : j ≠ i := by
      rintro rfl
      rw [call] at task
      cases task
    exact ⟨j, line, t, rfl, rfl, (lookup_setTask other).trans call, busy⟩
  | @conclude i outcome task =>
    have other : j ≠ i := by
      rintro rfl
      rw [call] at task
      cases task
    exact ⟨j, line, t, rfl, rfl, (lookup_filter_ne other).trans call,
      (Function.update_of_ne other ..).trans busy⟩
  | @receive i u free =>
    have other : j ≠ i := by
      rintro rfl
      rw [busy] at free
      cases free
    exact ⟨j, line, t, rfl, rfl, (lookup_setTask other).trans call,
      (Function.update_of_ne other ..).trans busy⟩

/-- Every worker that is at work has its task. -/
def Manned (v : Work R S L) : Prop :=
  ∀ i t, v.executing i = some t → ∃ task, v.tasks.lookup i = some task

/-- A worker is at work until it ends. -/
theorem Manned.next (h : v.Manned) (hm : Moves plan v v') : v'.Manned := by
  have set : ∀ (v : Work R S L) i task, (∀ j, j ≠ i → ∀ t, v.executing j = some t →
      ∃ task, v.tasks.lookup j = some task) → (v.setTask i task).Manned := by
    intro v i task others j t executing
    by_cases mine : j = i
    · exact ⟨task, by rw [mine, setTask, List.lookup_cons_self]⟩
    · rw [lookup_setTask mine]
      exact others j mine t executing
  cases hm with
  | still => exact h
  | act | send => exact set _ _ _ fun j _ => h j
  | receive =>
    refine set _ _ _ fun j other t executing => h j t ?_
    simpa [Function.update_of_ne other] using executing
  | @conclude i =>
    intro j t executing
    have other : j ≠ i := by
      rintro rfl
      simp [endTask] at executing
    obtain ⟨task, mine⟩ := h j t (by simpa [endTask, Function.update_of_ne other] using executing)
    exact ⟨task, (lookup_filter_ne other).trans mine⟩

end Work

end Flow

end BatchPool
