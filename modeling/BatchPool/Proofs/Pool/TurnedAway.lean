import BatchPool.Proofs.Pool.Shutdown

/-!
# Calls at a closed queue

A call that is to enqueue a job at a closed queue is turned away, whether it waited when the queue was
closed or comes later, and nothing is left of it.

* `Play.TurnsAway`: the steps that such calls make, and what is left behind them.
* `Play.turnsAway`: so it is after every run that leaves a closed queue.
-/

namespace BatchPool

namespace Pool

variable {J : Type}

/-- The steps that a call which waits at a closed queue has still to make. -/
def Waiting.wayOut (c : Waiting J) : List (Step J) :=
  if c.refused then [.rollback c.caller] else [.refuse c.caller, .rollback c.caller]

/-- The pool after a call that waited was turned away. -/
def turnedAway (p : Pool J) (caller : Thread) : Pool J :=
  { p.endWaiting caller with inFlight := p.inFlight - 1 }

variable {p : Pool J} {c : Waiting J} {caller : Thread} {job : J}

/-! ## The calls that wait -/

/-- A refused call and the others. -/
theorem filter_map_refuse (l : List (Waiting J)) :
    (l.map (Waiting.refuse caller)).filter (fun d => d.caller ≠ caller) =
      l.filter fun d => d.caller ≠ caller := by
  induction l with
  | nil => rfl
  | cons d rest ih =>
    by_cases mine : d.caller = caller
    · simpa [Waiting.refuse, mine] using ih
    · simpa [Waiting.refuse, mine] using ih

/-- The call of a thread after it was refused. -/
theorem find?_map_refuse {l : List (Waiting J)} (call : l.find? (fun d => d.caller = caller) = some c) :
    (l.map (Waiting.refuse caller)).find? (fun d => d.caller = caller) =
      some { c with refused := true } := by
  induction l with
  | nil => cases call
  | cons d rest ih =>
    by_cases mine : d.caller = caller
    · rw [List.find?_cons_of_pos (by simpa using mine)] at call
      cases call
      simp [Waiting.refuse, mine]
    · rw [List.find?_cons_of_neg (by simpa using mine)] at call
      rw [List.map_cons, Waiting.refuse, if_neg mine, List.find?_cons_of_neg (by simpa using mine)]
      exact ih call

/-- The pool with a call that waits. -/
def withWaiting (p : Pool J) (caller : Thread) (job : J) : Pool J :=
  { p with
    inFlight := p.inFlight + 1
    waiting := p.waiting ++ [{ caller := caller, job := job }] }

/-- A call that comes and goes leaves the others as they are. -/
theorem turnedAway_withWaiting (absent : caller ∉ p.waiting.map (·.caller)) :
    (p.withWaiting caller job).turnedAway caller = p := by
  have others : p.waiting.filter (fun d => d.caller ≠ caller) = p.waiting :=
    List.filter_eq_self.2 fun d hd => decide_eq_true fun mine =>
      absent (mine ▸ List.mem_map_of_mem hd)
  have all : (p.withWaiting caller job).waiting.filter (fun d => d.caller ≠ caller) = p.waiting := by
    rw [withWaiting, List.filter_append, others]
    simp
  simp only [turnedAway, endWaiting, all]
  rfl

theorem waitingOf?_withWaiting (free : p.mayCall caller = true) :
    (p.withWaiting caller job).waitingOf? caller = some { caller := caller, job := job } := by
  have none := waitingOf?_of_mayCall free
  rw [waitingOf?] at none ⊢
  rw [withWaiting, List.find?_append, none]
  simp

/-! ## Plays -/

namespace Play

variable {s : Play J} {steps : List (Step J)}

/-- The queue is closed, and calls that are to enqueue a job are turned away. -/
structure TurnsAway (s : Play J) : Prop where
  closed : s.pool.closed = true
  /-- A call that waits cannot insert its job. It is refused, and takes its job back; then it no longer
  counts as in flight. -/
  waiting : ∀ c ∈ s.pool.waiting, s.step? (.insert c.caller) = none ∧
    ∃ t, s.run? c.wayOut = some t ∧ t.pool = s.pool.turnedAway c.caller ∧
      t.pool.inFlight + 1 = s.pool.inFlight ∧
        t.history = .rejected c.caller c.job :: .logged c.caller .rejected :: s.history
  /-- So is one that comes, and it leaves the pool as it was. -/
  coming : ∀ caller job, s.pool.mayCall caller = true →
    ∃ t, s.run? [.enqueue caller job, .refuse caller, .rollback caller] = some t ∧
      t.pool = s.pool ∧
        t.history = .rejected caller job :: .logged caller .rejected :: s.history
  /-- A call that does not wait is refused at once. -/
  offer : ∀ caller job, s.pool.mayCall caller = true →
    s.step? (.offer caller job) = some (s.record [.logged caller .rejected, .rejected caller job])

/-- A call that was refused takes its job back. -/
theorem step?_rollback (call : s.pool.waitingOf? caller = some c) (refused : c.refused = true) :
    s.step? (.rollback caller) = some ({ s with pool := s.pool.turnedAway caller }.record
      [.logged caller .rejected, .rejected caller c.job]) := by
  exact step?_of_moves (.rollback call refused)

/-- A call that waits at a closed queue is turned away. -/
theorem run?_wayOut (closed : s.pool.closed = true) (call : s.pool.waitingOf? c.caller = some c) :
    s.run? c.wayOut = some ({ s with pool := s.pool.turnedAway c.caller }.record
      [.logged c.caller .rejected, .rejected c.caller c.job]) := by
  unfold Waiting.wayOut
  cases refused : c.refused with
  | true =>
    rw [if_pos rfl, run?, step?_rollback call refused]
    rfl
  | false =>
    let told : Play J :=
      { s with pool := { s.pool with waiting := s.pool.waiting.map (Waiting.refuse c.caller) } }
    have first : s.step? (.refuse c.caller) = some told :=
      step?_of_moves (.refuse call refused closed)
    have second := step?_rollback (s := told) (find?_map_refuse call) rfl
    have same : told.pool.turnedAway c.caller = s.pool.turnedAway c.caller := by
      simp only [told, turnedAway, endWaiting, filter_map_refuse]
    rw [if_neg (by simp), run?, first]
    simp only [run?, second, same]
    rfl

/-- **Calls at a closed queue are turned away.** -/
theorem turnsAway (hp : p.Fresh) (hs : Play.run? { pool := p } steps = some s)
    (closed : s.pool.closed = true) : s.TurnsAway where
  closed := closed
  waiting := fun c hc => by
    have call : s.pool.waitingOf? c.caller = some c :=
      find?_of_mem Waiting.caller (waiting_callers hp hs) hc
    have counted := inFlight_eq hp hs
    have some := List.length_pos_of_mem hc
    refine ⟨?_, _, run?_wayOut closed call, rfl, ?_, rfl⟩
    · simp [Play.step?, Pool.step?, insertWaiting, call, closed]
    · show s.pool.inFlight - 1 + 1 = s.pool.inFlight
      omega
  coming := fun caller job free => by
    let waits : Play J := { s with pool := s.pool.withWaiting caller job }
    have first : s.step? (.enqueue caller job) = some waits := step?_of_moves (.enqueue free)
    have later := run?_wayOut (s := waits) (c := { caller := caller, job := job }) closed
      (waitingOf?_withWaiting free)
    have same : waits.pool.turnedAway caller = s.pool :=
      turnedAway_withWaiting (not_waiting_of_mayCall free)
    refine ⟨s.record [.logged caller .rejected, .rejected caller job], ?_, rfl, rfl⟩
    rw [run?, first]
    exact later.trans (by rw [same])
  offer := fun caller job free => step?_of_moves (.offerClosed free closed)

end Play

end Pool

end BatchPool
