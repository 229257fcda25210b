import BatchPool.Pool.Next
import BatchPool.Proofs.Pool.Whole
import Mathlib.Algebra.Order.BigOperators.Group.List
import Mathlib.Algebra.Order.Group.Nat
import Mathlib.Data.Set.Finite.Lattice
import Mathlib.Order.Bounds.Basic

/-!
# How long a closed pool goes on

The loop, the workers and the calls that are refused go on by themselves. Once the queue is closed
nothing enters it, so each of their steps uses up some effort, and only a new call that waits brings
in more.

* `Step.inner`: such a step, and `Step.nested`: a call that a work function makes.
* `Pool.effort`: how many inner steps a pool has still in it, and `Moves.effort_next`.
* `Play.inner_le`: a bound on the inner steps of a run.
* `Play.Endless`: runs without an end, and `Play.endless_calls`: in one of inner steps and calls of
  work functions, a work function makes calls without an end.
-/

namespace BatchPool

namespace Pool

variable {J : Type}

/-- A step that the loop, a worker or a call that is refused makes by itself. -/
def Step.inner : Step J → Bool
  | .take | .claim | .hand | .discard _ | .settle | .announce _ | .receive _ | .conclude _ _ _
  | .complete _ | .refuse _ | .rollback _ => true
  | _ => false

/-- A work function makes a call that enqueues a job. -/
def Step.nested : Step J → Bool
  | .enqueue (.worker _) _ | .offer (.worker _) _ => true
  | _ => false

/-- The steps that a call that waits for room has still to make if it is refused. -/
def Waiting.effort (c : Waiting J) : Nat := if c.refused then 1 else 2

/-- The steps that a worker has still to make. From the end of a job it comes back to the start. -/
def Phase.effort : Phase J → Nat
  | .announcing => 2
  | .listening => 1
  | .executing _ => 4
  | .settling _ => 3
  | .unborn | .stopped | .dead _ => 0

/-- The steps that a worker has still to make, those for the job in its slot included. -/
def Worker.effort (w : Worker J) : Nat := w.phase.effort + 4 * w.slot.toList.length

/-- The steps that the loop has still to make, and the worker that it has a job for. -/
def Loop.effort : Loop J → Nat
  | .receiving => 1
  | .holding _ => 7
  | .handing _ => 6
  | .discarding _ => 3
  | .settling _ => 2
  | .unborn | .stopped | .dead _ => 0

/-- The steps that are to be made for what is in the pool. -/
def effort (p : Pool J) : Nat :=
  (p.waiting.map (·.effort)).sum + 7 * p.queue.length + p.loop.effort + (p.workers.map (·.effort)).sum

variable {p q : Pool J} {step : Step J} {events : List (Event J)} {i : Nat} {w w' : Worker J}

/-! ## Sums -/

/-- The sum over the workers after one of them changed. -/
theorem sum_map_set {l : List (Worker J)} (f : Worker J → Nat) (here : l[i]? = some w)
    (w' : Worker J) : ((l.set i w').map f).sum + f w = (l.map f).sum + f w' := by
  induction l generalizing i with
  | nil => simp at here
  | cons v rest ih =>
    cases i with
    | zero =>
      simp only [List.getElem?_cons_zero, Option.some.injEq] at here
      subst here
      simp only [List.set_cons_zero, List.map_cons, List.sum_cons]
      omega
    | succ i =>
      have := ih (i := i) (by simpa using here)
      simp only [List.set_cons_succ, List.map_cons, List.sum_cons]
      omega

/-- Where one worker changes, and the loop perhaps, it is enough to look at these two. -/
theorem effort_le_of_set {a b : Nat} (here : p.workers[i]? = some w)
    (workers : q.workers = p.workers.set i w') (waiting : q.waiting = p.waiting)
    (queue : q.queue = p.queue)
    (less : q.loop.effort + w'.effort + a ≤ p.loop.effort + w.effort + b) :
    q.effort + a ≤ p.effort + b := by
  have sum := sum_map_set (·.effort) here w'
  simp only [effort, workers, waiting, queue]
  omega

/-- The sum over the calls that wait after one of them was refused. -/
theorem sum_map_refuse (f : Waiting J → Nat) {l : List (Waiting J)} {caller : Thread} {c : Waiting J}
    (call : l.find? (fun d : Waiting J => d.caller = caller) = some c)
    (less : f { c with refused := true } + 1 ≤ f c) (le : ∀ d, f { d with refused := true } ≤ f d) :
    ((l.map fun d => if d.caller = caller then { d with refused := true } else d).map f).sum + 1 ≤
      (l.map f).sum := by
  have each : ∀ d : Waiting J,
      f (if d.caller = caller then { d with refused := true } else d) ≤ f d := by
    intro d
    split
    · exact le d
    · exact Nat.le_refl _
  induction l with
  | nil => cases call
  | cons d rest ih =>
    simp only [List.map_cons, List.sum_cons]
    by_cases hd : d.caller = caller
    · rw [List.find?_cons_of_pos (by simpa using hd)] at call
      cases call
      have others : ((rest.map fun d => if d.caller = caller then { d with refused := true } else d).map
          f).sum ≤ (rest.map f).sum := by
        rw [List.map_map]
        exact List.sum_le_sum fun d _ => each d
      rw [if_pos hd]
      omega
    · rw [List.find?_cons_of_neg (by simpa using hd)] at call
      have := ih call
      have := each d
      omega

/-- The sum over the calls that wait after one of them has returned. -/
theorem sum_map_endWaiting (f : Waiting J → Nat) {l : List (Waiting J)} {caller : Thread}
    {c : Waiting J} (call : l.find? (fun d : Waiting J => d.caller = caller) = some c) :
    ((l.filter fun d => d.caller ≠ caller).map f).sum + f c ≤ (l.map f).sum := by
  induction l with
  | nil => cases call
  | cons d rest ih =>
    by_cases hd : d.caller = caller
    · rw [List.find?_cons_of_pos (by simpa using hd)] at call
      cases call
      have others : ((rest.filter fun d => d.caller ≠ caller).map f).sum ≤ (rest.map f).sum :=
        (List.filter_sublist.map _).sum_le_sum fun _ _ => Nat.zero_le _
      rw [List.filter_cons_of_neg (by simpa using hd), List.map_cons, List.sum_cons]
      omega
    · rw [List.find?_cons_of_neg (by simpa using hd)] at call
      rw [List.filter_cons_of_pos (by simpa using hd)]
      have := ih call
      simp only [List.map_cons, List.sum_cons]
      omega

/-! ## Steps -/

/-- A worker that can make a call executes a job. -/
theorem executing?_of_mayCall (free : p.mayCall (.worker i) = true) :
    ∃ t, p.executing? i = some t := by
  simp only [mayCall, Bool.and_eq_true] at free
  have works := free.2
  cases here : p.workers[i]? with
  | none => simp [here] at works
  | some w =>
    obtain ⟨phase, ready, slot⟩ := w
    cases phase with
    | executing t => exact ⟨t, by simp [executing?, here]⟩
    | _ => simp [here] at works

/-- **An inner step of a closed pool uses up effort, and only a call that waits brings in more.** -/
theorem Moves.effort_next (hm : Moves p step q events) (running : p.lifecycle = .running)
    (closed : p.closed = true) :
    q.effort + step.inner.toNat ≤ p.effort + 2 * step.enqueues.toNat := by
  cases hm with
  | insert _ _ unclosed | offerTaken _ unclosed => exact absurd closed (by simp [unclosed])
  | startFirst _ lifecycle | spawnFails lifecycle | spawnWorker lifecycle | spawnLoop lifecycle =>
    exact absurd running (by simp [lifecycle])
  | enqueue =>
    simp only [effort, List.map_append, List.sum_append, Step.inner, Step.enqueues]
    simp [Waiting.effort]
    omega
  | refuse call fresh =>
    have := sum_map_refuse (·.effort) call (by simp [Waiting.effort, fresh])
      (fun d => by cases hd : d.refused <;> simp [Waiting.effort, hd])
    simp only [effort, Step.inner, Step.enqueues, Bool.toNat_true, Bool.toNat_false]
    omega
  | @rollback caller c call refused =>
    have := sum_map_endWaiting (·.effort) call
    have last : c.effort = 1 := if_pos refused
    simp only [effort, Step.inner, Step.enqueues, Bool.toNat_true, Bool.toNat_false]
    omega
  | take loop queue | stopLoop loop queue =>
    simp only [effort, loop, queue, Loop.effort, Step.inner, Step.enqueues, Bool.toNat_true,
      Bool.toNat_false, List.length_cons]
    omega
  | claimGone loop | handGone loop | discard loop | discardFatal loop | settle loop =>
    simp only [effort, loop, Loop.effort, Step.inner, Step.enqueues, Bool.toNat_true,
      Bool.toNat_false]
    omega
  | claim loop turn =>
    refine effort_le_of_set turn rfl rfl rfl ?_
    simp only [loop, Loop.effort, Worker.effort, Step.inner, Step.enqueues, Bool.toNat_true,
      Bool.toNat_false]
    omega
  | hand loop turn _ empty =>
    refine effort_le_of_set turn rfl rfl rfl ?_
    simp only [loop, empty, Loop.effort, Worker.effort, Step.inner, Step.enqueues, Bool.toNat_true,
      Bool.toNat_false, Option.toList_some, Option.toList_none, List.length_singleton,
      List.length_nil]
    omega
  | receive here phase slot =>
    refine effort_le_of_set here rfl rfl rfl ?_
    simp [phase, slot, Worker.effort, Phase.effort, Step.inner, Step.enqueues]
  | announce here phase | announceStops here phase | receiveStops here phase
  | conclude here phase | concludeReported here phase | concludeFatal here phase
  | complete here phase =>
    refine effort_le_of_set here rfl rfl rfl ?_
    simp only [Worker.effort, phase, Phase.effort, Step.inner, Step.enqueues, Bool.toNat_true,
      Bool.toNat_false]
    omega
  | _ => simp [effort, Step.inner, Step.enqueues]

/-! ## Runs -/

namespace Play

variable {s t : Play J} {rest : List (Step J)}

/-- A running pool runs on. -/
theorem running_run (running : s.pool.lifecycle = .running) (h : s.run? rest = some t) :
    t.pool.lifecycle = .running :=
  run_preserves (motive := fun t => t.pool.lifecycle = .running) running
    (fun _ _ _ _ before hm => hm.running_next before) h

/-- **A closed pool makes no more inner steps than it has effort left, and two for each call.** -/
theorem inner_le (running : s.pool.lifecycle = .running) (closed : s.pool.closed = true)
    (h : s.run? rest = some t) :
    t.pool.effort + rest.countP Step.inner ≤ s.pool.effort + 2 * rest.countP Step.enqueues := by
  induction rest generalizing s with
  | nil =>
    cases h
    simp
  | cons step rest ih =>
    simp only [run?] at h
    split at h
    · next u hu =>
      obtain ⟨q, es, hm, rfl⟩ := moves_of_step? hu
      have now := hm.effort_next running closed
      have later := ih (hm.running_next running) (hm.closed_next closed) h
      have count : ∀ f : Step J → Bool, (step :: rest).countP f = rest.countP f + (f step).toNat :=
        fun f => by cases hf : f step <;> simp [hf]
      simp only [pool_next, count] at later ⊢
      omega
    · cases h

/-- A run without an end: the play before each step, and the steps. -/
structure Endless (s : Play J) (plays : Nat → Play J) (moves : Nat → Step J) : Prop where
  start : plays 0 = s
  next : ∀ n, (plays n).step? (moves n) = some (plays (n + 1))

/-- The work function makes the step while it is at work on the job. -/
def CallsFor (s : Play J) (step : Step J) (t : Ticket J) : Prop :=
  ∃ i, s.pool.executing? i = some t ∧
    ((∃ job, step = .enqueue (.worker i) job) ∨ ∃ job, step = .offer (.worker i) job)

variable {plays : Nat → Play J} {moves : Nat → Step J}

/-- The first steps of a run without an end, from one of its plays. -/
theorem Endless.run (h : s.Endless plays moves) (n k : Nat) :
    (plays n).run? ((List.range k).map fun j => moves (n + j)) = some (plays (n + k)) := by
  induction k with
  | zero => rfl
  | succ k ih =>
    rw [List.range_succ, List.map_append, run?_append, ih]
    simp [run?, h.next (n + k), Nat.add_assoc]

theorem countP_moves_eq_zero {f : Step J → Bool} {n : Nat} (none : ∀ j, f (moves (n + j)) = false)
    (k : Nat) : ((List.range k).map fun j => moves (n + j)).countP f = 0 := by
  refine List.countP_eq_zero.2 fun step hstep => ?_
  obtain ⟨j, -, rfl⟩ := List.mem_map.1 hstep
  simp [none j]

theorem executing_of_executing? {i : Nat} {x : Ticket J} (h : s.pool.executing? i = some x) :
    (i, x) ∈ s.pool.executing := by
  unfold executing? at h
  split at h
  · next u ready slot here =>
    cases h
    exact mem_atWorkers.2 ⟨i, _, here, by simp⟩
  · cases h

/-- A job that a worker is at work on entered the queue. -/
theorem accepted_of_executing? {p : Pool J} {steps : List (Step J)} (hp : p.Fresh)
    (hs : Play.run? { pool := p } steps = some s) {i : Nat} {x : Ticket J}
    (h : s.pool.executing? i = some x) : x ∈ s.accepted := by
  have began : (i, x) ∈ s.began := executing_subset hp hs (executing_of_executing? h)
  exact Multiset.mem_of_le (began_le hp hs)
    (Multiset.mem_coe.2 (List.mem_map_of_mem (f := (·.2)) began))

/-- A work function that makes a call is at work on a job. -/
theorem callsFor_of_nested {step : Step J} (h : s.step? step = some t)
    (nested : step.nested = true) : ∃ x, s.CallsFor step x := by
  obtain ⟨q, es, hm, -⟩ := moves_of_step? h
  unfold Step.nested at nested
  split at nested
  · next i job =>
    cases hm with
    | enqueue ready =>
      obtain ⟨x, hx⟩ := executing?_of_mayCall ready
      exact ⟨x, i, hx, .inl ⟨job, rfl⟩⟩
  · next i job =>
    have ready : s.pool.mayCall (.worker i) = true := by
      cases hm <;> assumption
    obtain ⟨x, hx⟩ := executing?_of_mayCall ready
    exact ⟨x, i, hx, .inr ⟨job, rfl⟩⟩
  · cases nested

/-- **If a closed pool goes on without an end, a work function makes calls without an end.** -/
theorem endless_calls {p : Pool J} {steps : List (Step J)} (hp : p.Fresh)
    (hs : Play.run? { pool := p } steps = some s) (running : s.pool.lifecycle = .running)
    (closed : s.pool.closed = true) (h : s.Endless plays moves)
    (own : ∀ n, (moves n).inner = true ∨ (moves n).nested = true) :
    ∃ x ∈ s.accepted, {n | (plays n).CallsFor (moves n) x}.Infinite := by
  by_contra few
  push Not at few
  have at_n : ∀ n, (plays n).pool.lifecycle = .running ∧ (plays n).pool.closed = true ∧
      (plays n).accepted = s.accepted := by
    intro n
    have run := h.run 0 n
    rw [h.start, Nat.zero_add] at run
    exact ⟨running_run running run, shut_run closed run⟩
  -- Calls are made for jobs that are in the pool, and there are only so many.
  have calls : {n | (moves n).nested = true}.Finite := by
    refine (s.accepted.finite_toSet.biUnion fun x hx => few x hx).subset ?_
    intro n nested
    obtain ⟨x, hx⟩ := callsFor_of_nested (h.next n) nested
    obtain ⟨i, works, -⟩ := id hx
    refine Set.mem_biUnion ?_ hx
    have run : Play.run? { pool := p } (steps ++ (List.range n).map fun j => moves (0 + j)) =
        some (plays n) := by
      rw [run?_append, hs, ← h.start]
      simpa using h.run 0 n
    show x ∈ s.accepted
    rw [← (at_n n).2.2]
    exact accepted_of_executing? hp run works
  obtain ⟨last, bound⟩ := calls.bddAbove
  -- After the last call every step uses up effort.
  have inner : ∀ j, (moves (last + 1 + j)).nested = false := by
    intro j
    by_contra nested
    have := bound (show last + 1 + j ∈ {n | (moves n).nested = true} by simpa using nested)
    omega
  have spent := inner_le (at_n (last + 1)).1 (at_n (last + 1)).2.1
    (h.run (last + 1) ((plays (last + 1)).pool.effort + 1))
  have all : ((List.range ((plays (last + 1)).pool.effort + 1)).map fun j =>
      moves (last + 1 + j)).countP Step.inner = (plays (last + 1)).pool.effort + 1 := by
    rw [List.countP_eq_length.2, List.length_map, List.length_range]
    intro step hstep
    obtain ⟨j, -, rfl⟩ := List.mem_map.1 hstep
    exact (own _).resolve_right (by simp [inner j])
  have waits : ∀ j, (moves (last + 1 + j)).enqueues = false := by
    intro j
    have := (own (last + 1 + j)).resolve_right (by simp [inner j])
    cases hm : moves (last + 1 + j) <;> simp_all [Step.inner, Step.enqueues]
  have none := countP_moves_eq_zero waits ((plays (last + 1)).pool.effort + 1)
  omega

end Play

end Pool

end BatchPool
