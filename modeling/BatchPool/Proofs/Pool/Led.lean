import BatchPool.Proofs.Pool.Shutdown

/-!
# Pools that one thread leads

One thread starts the pool and shuts it down; the others enqueue jobs, but none once the queue is
closed. In such a pool no call is refused, and when the leader returns from shutting it down, its
threads have ended.

* `Step.Orderly`: a step that goes by these rules.
* `Pool.Led`: what such steps keep, and `Led.next`.
* `Pool.Launched`: the pool was started.
* `Led.call_isSome`: a call goes on where there is room, and where the threads have ended.
* `Led.exited`: what the leader finds when it has shut the pool down.
-/

namespace BatchPool

namespace Pool

variable {J : Type}

/-- A step of a pool that a thread leads. Only the leader starts the pool, and only while the queue is
open. Only the leader closes the queue, by shutting the pool down while no call waits for room. No
call begins at a closed queue, every thread can be started, and no report kills its thread. -/
def Step.Orderly (leader : Thread) (p : Pool J) : Step J → Prop
  | .start caller => caller = leader ∧ p.closed = false
  | .shutDown caller => caller = leader ∧ p.waiting = []
  | .enqueue _ _ => p.closed = false
  | .spawn fails => fails = false
  | .offer _ _ | .close _ | .drop => False
  | .discard panics | .conclude _ _ panics => panics = false
  | _ => True

/-- What holds of a pool that a thread leads. -/
structure Led (leader : Thread) (p : Pool J) : Prop where
  shutdowns : ∀ x ∈ p.shutdowns, x.1 = leader
  starting : ∀ caller n, p.lifecycle = .starting caller n → caller = leader
  kept : p.dropped = false
  /-- The leader shuts the pool down only if it closed the queue. -/
  before : p.closed = false → p.shutdowns = []
  /-- Then all threads are started, and the leader takes them over. -/
  after : p.closed = true → (∀ caller n, p.lifecycle ≠ .starting caller n) ∧
    (p.threads = [] ∨ p.shutdownOf? leader = some .retiring ∨
      p.shutdownOf? leader = some .collecting)
  /-- No call waits at a closed queue, and none is refused. -/
  welcome : p.closed = true → p.waiting = []
  unrefused : ∀ c ∈ p.waiting, c.refused = false

/-- The pool was started, or is being started. -/
def Launched (p : Pool J) : Prop :=
  p.lifecycle = .running ∨ ∃ caller n, p.lifecycle = .starting caller n

variable {leader caller thread : Thread} {p q : Pool J} {step : Step J} {events : List (Event J)}

/-! ## Small facts -/

theorem Step.Orderly.calm (h : step.Orderly leader p) : step.panics = false := by
  cases step with
  | discard | conclude => exact h
  | _ => rfl

/-- A call that shuts the pool down is the leader's. -/
theorem Led.caller_eq {caller : Thread} {stage : Shutdown} (h : p.Led leader)
    (call : p.shutdownOf? caller = some stage) : caller = leader :=
  h.shutdowns _ (mem_of_shutdownOf? call)

/-- The leader shuts the pool down only if it closed the queue. -/
theorem Led.closed_of_mem {x : Thread × Shutdown} (h : p.Led leader) (mem : x ∈ p.shutdowns) :
    p.closed = true := by
  by_contra unclosed
  rw [h.before (by simpa using unclosed)] at mem
  cases mem

theorem shutdownOf?_setShutdown {stage stage' : Shutdown} (call : p.shutdownOf? leader = some stage) :
    (p.setShutdown leader stage').shutdownOf? leader = some stage' := by
  unfold shutdownOf? setShutdown at *
  generalize p.shutdowns = l at *
  induction l with
  | nil => cases call
  | cons x rest ih =>
    obtain ⟨c, other⟩ := x
    by_cases same : leader = c
    · simp [same]
    · have ne : (leader == c) = false := by simpa using same
      rw [List.lookup_cons, ne] at call
      simp [List.lookup_cons, ne, Ne.symm same, ih call]

/-- A thread is in no call if it neither waits for room, nor shuts the pool down, nor starts it. -/
theorem busy_eq_false_iff {caller : Thread} : p.busy caller = false ↔
    (∀ c ∈ p.waiting, c.caller ≠ caller) ∧ (∀ x ∈ p.shutdowns, x.1 ≠ caller) ∧
      ∀ n, p.lifecycle ≠ .starting caller n := by
  simp only [busy, Bool.or_eq_false_iff, List.any_eq_false, decide_eq_true_eq, and_assoc]
  refine and_congr_right fun _ => and_congr_right fun _ => ?_
  cases lifecycle : p.lifecycle <;> simp

/-- A thread that can make a call shuts nothing down, and starts nothing. -/
theorem of_mayCall {caller : Thread} (free : p.mayCall caller = true) :
    (∀ x ∈ p.shutdowns, x.1 ≠ caller) ∧ ∀ n, p.lifecycle ≠ .starting caller n := by
  simp only [mayCall, Bool.and_eq_true, Bool.not_eq_true'] at free
  exact (busy_eq_false_iff.1 free.1.2).2

theorem lookup_append_self {l : List (Thread × Shutdown)} {stage : Shutdown}
    (absent : ∀ x ∈ l, x.1 ≠ leader) : (l ++ [(leader, stage)]).lookup leader = some stage := by
  induction l with
  | nil => simp
  | cons x rest ih =>
    have ne : (leader == x.1) = false := by
      simpa using Ne.symm (absent x List.mem_cons_self)
    rw [List.cons_append, List.lookup_cons, ne]
    exact ih fun y hy => absent y (List.mem_cons_of_mem _ hy)

/-! ## Steps -/

theorem Led.after_next (h : p.Led leader) (hm : Moves p step q events)
    (orderly : step.Orderly leader p) (closed : q.closed = true) :
    (∀ caller n, q.lifecycle ≠ .starting caller n) ∧
      (q.threads = [] ∨ q.shutdownOf? leader = some .retiring ∨
        q.shutdownOf? leader = some .collecting) := by
  cases hm with
  | offerClosed | offerFull | offerTaken | close | drop => exact orderly.elim
  | spawnFails => cases orderly
  | startFirst | startAgain =>
    have unclosed := orderly.2
    rw [show p.closed = true from closed] at unclosed
    cases unclosed
  | discardFatal => cases orderly
  | spawnWorker starting | spawnLoop starting => exact absurd starting ((h.after closed).1 _ _)
  | shutDown free =>
    obtain ⟨rfl, -⟩ := orderly
    obtain ⟨absent, started⟩ := of_mayCall free
    refine ⟨fun caller n starting => ?_, .inr (.inl (lookup_append_self absent))⟩
    rw [h.starting caller n starting] at starting
    exact started n starting
  | retire call =>
    obtain rfl := h.caller_eq call
    refine ⟨fun caller n => ?_, .inr (.inr (shutdownOf?_setShutdown call))⟩
    have := (h.after closed).1 caller n
    by_cases stopped : p.lifecycle = .stopped <;> simp [stopped, this]
  | collect => exact ⟨(h.after closed).1, .inl rfl⟩
  | join call | finish call =>
    obtain rfl := h.caller_eq call
    obtain ⟨started, threads | stage | stage⟩ := h.after closed
    · exact ⟨started, .inl threads⟩
    all_goals rw [call] at stage; cases stage
  | _ => exact h.after closed

theorem Led.shutdowns_next (h : p.Led leader) (hm : Moves p step q events)
    (orderly : step.Orderly leader p) :
    (∀ x ∈ q.shutdowns, x.1 = leader) ∧ (q.closed = false → q.shutdowns = []) := by
  have before := fun unclosed => h.before (hm.open_before unclosed)
  cases hm with
  | @shutDown caller =>
    refine ⟨fun x hx => ?_, fun unclosed => by cases unclosed⟩
    obtain old | new := List.mem_append.1 hx
    · exact h.shutdowns x old
    · rw [List.mem_singleton.1 new]
      exact orderly.1
  | @retire caller call | @collect caller call | @join caller _ _ call =>
    refine ⟨fun x hx => ?_, fun unclosed => by simp [setShutdown, before unclosed]⟩
    obtain ⟨y, hy, rfl⟩ := List.mem_map.1 hx
    split
    · exact h.caller_eq call
    · exact h.shutdowns y hy
  | finish =>
    exact ⟨fun x hx => h.shutdowns x (List.mem_of_mem_filter hx),
      fun unclosed => by simp [before unclosed]⟩
  | _ => exact ⟨h.shutdowns, before⟩

theorem Led.starting_next (h : p.Led leader) (hm : Moves p step q events)
    (orderly : step.Orderly leader p) :
    ∀ caller n, q.lifecycle = .starting caller n → caller = leader := by
  cases hm with
  | drop => exact orderly.elim
  | spawnFails | spawnLoop =>
    intro caller n starting
    cases starting
  | startFirst =>
    intro caller n starting
    cases starting
    exact orderly.1
  | spawnWorker lifecycle =>
    intro caller n starting
    cases starting
    exact h.starting _ _ lifecycle
  | retire =>
    intro caller n starting
    refine h.starting caller n ?_
    by_cases stopped : p.lifecycle = .stopped
    · simp [stopped] at starting
    · simpa [stopped] using starting
  | _ => exact h.starting

/-- No call waits at a closed queue, and a step by the rules refuses nobody. -/
theorem Led.waiting_next (h : p.Led leader) (hm : Moves p step q events)
    (orderly : step.Orderly leader p) :
    (q.closed = true → q.waiting = []) ∧ (∀ c ∈ q.waiting, c.refused = false) ∧
      events.filterMap Event.refused? = [] := by
  cases hm with
  | offerClosed | offerFull | offerTaken | close | drop => exact orderly.elim
  | spawnFails => cases orderly
  | discardFatal => cases orderly
  | enqueue =>
    refine ⟨fun closed => ?_, fun c hc => ?_, rfl⟩
    · rw [show p.closed = false from orderly] at closed
      cases closed
    · obtain old | new := List.mem_append.1 hc
      · exact h.unrefused c old
      · rw [List.mem_singleton.1 new]
  | insert =>
    refine ⟨fun closed => ?_, fun c hc => h.unrefused c (List.mem_of_mem_filter hc), rfl⟩
    rw [h.welcome closed]
    rfl
  | refuse call _ closed =>
    have := List.mem_of_find?_eq_some call
    rw [h.welcome closed] at this
    cases this
  | rollback call refused =>
    rw [h.unrefused _ (List.mem_of_find?_eq_some call)] at refused
    cases refused
  | shutDown =>
    refine ⟨fun _ => orderly.2, h.unrefused, ?_⟩
    split <;> rfl
  | _ =>
    refine ⟨h.welcome, h.unrefused, ?_⟩
    simp [List.filterMap_cons, Event.refused?]

/-- **A step by the rules keeps a pool led.** -/
theorem Led.next (h : p.Led leader) (hm : Moves p step q events)
    (orderly : step.Orderly leader p) : q.Led leader where
  shutdowns := (h.shutdowns_next hm orderly).1
  starting := h.starting_next hm orderly
  kept := by
    cases hm with
    | drop => exact orderly.elim
    | _ => exact h.kept
  before := (h.shutdowns_next hm orderly).2
  after := h.after_next hm orderly
  welcome := (h.waiting_next hm orderly).1
  unrefused := (h.waiting_next hm orderly).2.1

theorem Launched.next (h : p.Launched) (hm : Moves p step q events)
    (orderly : step.Orderly leader p) : q.Launched := by
  obtain running | ⟨caller, n, starting⟩ := h
  · exact .inl (hm.running_next running)
  · cases hm with
    | drop => exact orderly.elim
    | spawnFails => cases orderly
    | startFirst => exact .inr ⟨_, _, rfl⟩
    | spawnWorker => exact .inr ⟨_, _, rfl⟩
    | spawnLoop => exact .inl rfl
    | retire => exact .inr ⟨caller, n, by simp [starting]⟩
    | _ => exact .inr ⟨caller, n, starting⟩

/-- A pool that was not started stays so while the queue is open. -/
theorem Led.stopped_next (h : p.Led leader) (hm : Moves p step q events)
    (stopped : p.lifecycle = .stopped) (unclosed : p.closed = false)
    (other : ∀ caller, step ≠ .start caller) (orderly : step.Orderly leader p) :
    q.lifecycle = .stopped := by
  cases hm with
  | drop => exact orderly.elim
  | startFirst | startAgain => exact absurd rfl (other _)
  | spawnFails starting | spawnWorker starting | spawnLoop starting =>
    rw [stopped] at starting
    cases starting
  | retire call =>
    have := mem_of_shutdownOf? call
    rw [h.before unclosed] at this
    cases this
  | _ => exact stopped

/-- The queue is closed by no step but one that shuts the pool down. -/
theorem Step.Orderly.closed_eq (orderly : step.Orderly leader p) (hm : Moves p step q events)
    (other : ∀ caller, step ≠ .shutDown caller) : q.closed = p.closed := by
  cases hm with
  | close | drop => exact orderly.elim
  | spawnFails => cases orderly
  | discardFatal => cases orderly
  | shutDown => exact absurd rfl (other _)
  | _ => rfl

/-! ## Who can go on -/

/-- A thread that does not wait for room is in no call, unless it is the leader. -/
theorem Led.busy_eq_false (h : p.Led leader) (other : thread ≠ leader)
    (waiting : ∀ c ∈ p.waiting, c.caller ≠ thread) : p.busy thread = false :=
  busy_eq_false_iff.2 ⟨waiting, fun x hx same => other (same.symm.trans (h.shutdowns x hx)),
    fun n starting => other (h.starting _ n starting)⟩

/-- **The call of a thread goes on, if there is room for its job, and if the thread that it joins has
ended.** -/
theorem Led.call_isSome (h : p.Led leader) (next : p.callStep? caller = some step)
    (room : (p.waitingOf? caller).isSome = true → p.isFull = false)
    (ended : ∀ t rest, (caller, .joining (t :: rest)) ∈ p.shutdowns → p.exited t = true) :
    (p.step? step).isSome = true := by
  unfold callStep? at next
  split at next
  · next c call =>
    have waits := List.mem_of_find?_eq_some call
    have unclosed : p.closed = false := by
      by_contra closed
      rw [h.welcome (by simpa using closed)] at waits
      cases waits
    rw [h.unrefused c waits, unclosed] at next
    cases next
    simp [step?, insertWaiting, call, h.unrefused c waits, unclosed, room (by simp [call])]
  · split at next
    · next call =>
      cases next
      simp [step?, Pool.retire, call]
    · next call =>
      cases next
      have closed := h.closed_of_mem (mem_of_shutdownOf? call)
      have unlocked : p.threadsLocked = false := by
        unfold threadsLocked
        split
        · next starting => exact absurd starting ((h.after closed).1 _ _)
        · rfl
      simp [step?, Pool.collect, call, unlocked]
    · next call =>
      cases next
      simp [step?, Pool.finish, call]
    · next threads not_nil call =>
      cases next
      cases threads with
      | nil => exact (not_nil rfl).elim
      | cons t rest => simp [step?, Pool.join, call, ended t rest (mem_of_shutdownOf? call)]
    · split at next
      · next starting =>
        split at next
        · cases next
          simp [step?, Pool.spawn, starting]
        · cases next
      · cases next

/-! ## Runs -/

theorem Fresh.led (h : p.Fresh) (leader : Thread) : p.Led leader where
  shutdowns := by simp [h.shutdowns]
  starting := by simp [h.lifecycle]
  kept := h.dropped
  before := fun _ => h.shutdowns
  after := fun closed => by rw [h.closed] at closed; cases closed
  welcome := fun _ => h.waiting
  unrefused := by simp [h.waiting]

/-- When the leader has shut a pool down, nobody shuts it down any more, and no thread is still to be
joined. -/
theorem Led.unjoined (h : p.Led leader) (closed : p.closed = true)
    (returned : p.busy leader = false) : p.shutdowns = [] ∧ p.threads = [] := by
  have none : p.shutdowns = [] := by
    refine List.eq_nil_iff_forall_not_mem.2 fun x hx => ?_
    exact (busy_eq_false_iff.1 returned).2.1 x hx (h.shutdowns x hx)
  have threads := (h.after closed).2
  exact ⟨none, by simpa [shutdownOf?, none] using threads⟩

/-- **When the leader has shut a pool down that was started, all its threads have ended.** -/
theorem Led.exited {steps : List (Step J)} {s : Play J} (hp : p.Fresh)
    (hs : Play.run? { pool := p } steps = some s) (h : s.pool.Led leader)
    (launched : s.pool.Launched) (closed : s.pool.closed = true)
    (returned : s.pool.busy leader = false) : s.pool.Exited := by
  obtain ⟨shutdowns, threads⟩ := h.unjoined closed returned
  have running : s.pool.lifecycle = .running :=
    launched.elim id fun ⟨caller, n, starting⟩ => absurd starting ((h.after closed).1 caller n)
  exact Play.exited_of_joined hp hs running h.kept threads shutdowns

end Pool

end BatchPool
