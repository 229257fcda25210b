import BatchPool.Proofs.Pool.Joining
import BatchPool.Proofs.Pool.Effort

/-!
# How many steps a pool makes

Every step of a pool uses up something that a call has brought in: a start brings in the threads, an
enqueued job its way to a worker, a shutdown the joining. This goes for the whole life of a pool; for
the steps of a closed one see `Pool.effort`.

* `Pool.toil`: how many steps a pool has still in it. A job that waits for a worker counts for `load`
  more, for what the worker will do.
* `Step.price`: what the step of a call brings in, itself included.
* `Sound.toil_next`: a step uses up its price.
-/

namespace BatchPool

namespace Pool

variable {J : Type}

/-- The steps that a call that waits for room has still to make, and its job behind it. -/
def Waiting.toil (load : Nat) (c : Waiting J) : Nat := if c.refused then 1 else load + 8

/-- The steps that the loop has still to make, and the worker that it has a job for. A thread that is
not started has still to be joined. -/
def Loop.toil (load : Nat) : Loop J → Nat
  | .unborn => 2
  | .holding _ => load + 7
  | .handing _ => load + 6
  | loop => loop.effort

/-- The steps that a worker has still to make. -/
def Worker.toil (load : Nat) (w : Worker J) : Nat :=
  match w.phase with
  | .unborn => 4
  | phase => phase.effort + (load + 4) * w.slot.toList.length

/-- A thread that is to be started may fail to. -/
def Lifecycle.toil : Lifecycle → Nat
  | .starting _ _ => 1
  | _ => 0

/-- The steps that a call that shuts the pool down has still to make, without those for the threads
that it takes over. -/
def Shutdown.toil : Shutdown → Nat
  | .retiring => 3
  | .collecting => 2
  | .joining threads => threads.length + 1

/-- The steps that are to be made for what is in the pool. -/
def toil (load : Nat) (p : Pool J) : Nat :=
  (p.waiting.map (·.toil load)).sum + (load + 7) * p.queue.length + p.loop.toil load +
    (p.workers.map (·.toil load)).sum + p.lifecycle.toil + p.threads.length +
      (p.shutdowns.map (·.2.toil)).sum

/-- The step of a call, and the steps that come from it. -/
def Step.price (load : Nat) : Step J → Nat
  | .enqueue _ _ => load + 9
  | .offer _ _ => load + 8
  | .shutDown _ => 4
  | .start _ => 2
  | .close _ | .idle _ | .drop => 1
  | _ => 0

variable {p q : Pool J} {step : Step J} {events : List (Event J)} {load i : Nat} {w w' : Worker J}

/-! ## Sums -/

/-- Where one worker changes, and the loop perhaps, it is enough to look at these two. -/
theorem toil_le_of_set {a b : Nat} (here : p.workers[i]? = some w)
    (workers : q.workers = p.workers.set i w') (waiting : q.waiting = p.waiting)
    (queue : q.queue = p.queue) (threads : q.threads = p.threads)
    (lifecycle : q.lifecycle = p.lifecycle) (shutdowns : q.shutdowns = p.shutdowns)
    (less : q.loop.toil load + w'.toil load + a ≤ p.loop.toil load + w.toil load + b) :
    q.toil load + a ≤ p.toil load + b := by
  have sum := sum_map_set (·.toil load) here w'
  simp only [toil, workers, waiting, queue, threads, lifecycle, shutdowns]
  omega

/-- The sum over the calls that shut the pool down after one of them went on. -/
theorem sum_map_setShutdown {caller : Thread} {stage : Shutdown} (stage' : Shutdown)
    (nodup : (p.shutdowns.map (·.1)).Nodup) (call : p.shutdownOf? caller = some stage) :
    ((p.setShutdown caller stage').shutdowns.map (·.2.toil)).sum + stage.toil =
      (p.shutdowns.map (·.2.toil)).sum + stage'.toil := by
  simp only [setShutdown, shutdownOf?] at call ⊢
  generalize p.shutdowns = l at *
  induction l with
  | nil => cases call
  | cons x rest ih =>
    obtain ⟨c, other⟩ := x
    simp only [List.map_cons, List.nodup_cons] at nodup
    by_cases same : caller = c
    · subst same
      rw [List.lookup_cons_self] at call
      cases call
      have others : (rest.map fun s => if s.1 = caller then (caller, stage') else s) = rest := by
        refine (List.map_congr_left fun s hs => if_neg fun same => ?_).trans (List.map_id rest)
        exact nodup.1 (same ▸ List.mem_map_of_mem hs)
      simp only [List.map_cons, if_true, List.sum_cons]
      rw [others]
      omega
    · have ne : (caller == c) = false := by simpa using same
      rw [List.lookup_cons, ne] at call
      have := ih nodup.2 call
      simp only [List.map_cons, if_neg (Ne.symm same), List.sum_cons]
      omega

/-- The sum over a list without what is found in it. -/
theorem sum_map_filter_key {κ β : Type} [DecidableEq κ] (f : κ × β → Nat) {l : List (κ × β)} {k : κ}
    {b : β} (found : l.lookup k = some b) :
    ((l.filter fun x => x.1 ≠ k).map f).sum + f (k, b) ≤ (l.map f).sum := by
  induction l with
  | nil => cases found
  | cons x rest ih =>
    obtain ⟨j, c⟩ := x
    by_cases same : k = j
    · subst same
      rw [List.lookup_cons_self] at found
      cases found
      have others : ((rest.filter fun x => x.1 ≠ k).map f).sum ≤ (rest.map f).sum :=
        (List.filter_sublist.map _).sum_le_sum fun _ _ => Nat.zero_le _
      rw [List.filter_cons_of_neg (by simp)]
      simp only [List.map_cons, List.sum_cons]
      omega
    · have ne : (k == j) = false := by simpa using same
      rw [List.lookup_cons, ne] at found
      have := ih found
      rw [List.filter_cons_of_pos (by simpa using Ne.symm same)]
      simp only [List.map_cons, List.sum_cons]
      omega

/-! ## Steps -/

/-- The work function begins where a worker takes a job. -/
theorem Moves.began_cases (hm : Moves p step q events) :
    events.filterMap Event.began? = [] ∨ ∃ i t, events = [.began i t] := by
  cases hm with
  | receive => exact .inr ⟨_, _, rfl⟩
  | _ => exact .inl (by simp [List.filterMap_cons, Event.began?, failStart])

/-- A job that a worker takes is no load any more. -/
theorem Moves.toil_of_began {t : Ticket J} (hm : Moves p step q events)
    (began : events = [.began i t]) : q.toil load + (load + 1) ≤ p.toil load + step.price load := by
  cases hm with
  | receive here phase slot =>
    refine toil_le_of_set here rfl rfl rfl rfl rfl rfl ?_
    simp only [phase, slot, Worker.toil, Phase.effort, Step.price, Option.toList_some,
      Option.toList_none, List.length_singleton, List.length_nil]
    omega
  | close | shutDown | join => split at began <;> cases began
  | _ => cases began

/-- A pool that was not started is nothing to be started any more when it is given up. -/
theorem toil_retired_le (lifecycle : Lifecycle) :
    (if lifecycle = .stopped then Lifecycle.retired else lifecycle).toil ≤ lifecycle.toil := by
  split
  · exact Nat.zero_le _
  · exact Nat.le_refl _

/-- The other steps use up what the calls have brought in. -/
theorem Sound.toil_le (h : p.Sound) (hm : Moves p step q events)
    (nodup : (p.shutdowns.map (·.1)).Nodup) (other : events.filterMap Event.began? = []) :
    q.toil load + 1 ≤ p.toil load + step.price load := by
  cases hm with
  | receive => cases other
  | @enqueue caller job =>
    have new : (⟨caller, job, false⟩ : Waiting J).toil load = load + 8 := rfl
    simp only [toil, Step.price, List.map_append, List.sum_append, List.map_cons, List.map_nil,
      List.sum_singleton]
    omega
  | @insert caller c call fresh =>
    have less := sum_map_endWaiting (·.toil load) call
    have mine : c.toil load = load + 8 := if_neg (by simp [fresh])
    simp only [toil, Step.price, List.length_append, List.length_singleton]
    rw [Nat.mul_add]
    omega
  | refuse call fresh =>
    have less := sum_map_refuse (·.toil load) call (by simp [Waiting.toil, fresh])
      (fun d => by cases hd : d.refused <;> simp [Waiting.toil, hd])
    simp only [toil, Step.price]
    omega
  | @rollback caller c call refused =>
    have less := sum_map_endWaiting (·.toil load) call
    have mine : c.toil load = 1 := if_pos refused
    simp only [toil, Step.price]
    omega
  | offerTaken =>
    simp only [toil, Step.price, List.length_append, List.length_singleton]
    rw [Nat.mul_add]
    omega
  | startFirst _ lifecycle | spawnFails lifecycle =>
    simp only [toil, Step.price, lifecycle, Lifecycle.toil]
    omega
  | @spawnWorker caller n w starting here =>
    obtain rfl := h.newborn n (by rw [starting]; rfl) n w (Nat.le_refl n) here
    have sum := sum_map_set (·.toil load) here { phase := .announcing }
    have born : ({ phase := .announcing } : Worker J).toil load = 2 := rfl
    have unborn : ({} : Worker J).toil load = 4 := rfl
    simp only [toil, Step.price, starting, Lifecycle.toil, List.length_append,
      List.length_singleton]
    omega
  | spawnLoop starting =>
    have unborn := h.unstarted (by simp [starting])
    simp only [toil, Step.price, starting, unborn, Lifecycle.toil, Loop.toil, Loop.effort,
      List.length_append, List.length_singleton]
    omega
  | shutDown =>
    simp only [toil, Step.price, Shutdown.toil, List.map_append, List.map_cons, List.map_nil,
      List.sum_append, List.sum_singleton]
    omega
  | offerClosed | offerFull | close | startAgain | idle =>
    simp only [toil, Step.price]
    omega
  | retire call =>
    have sum := sum_map_setShutdown .collecting nodup call
    have less := toil_retired_le p.lifecycle
    simp only [toil, Step.price, Shutdown.toil] at sum ⊢
    omega
  | collect call =>
    have sum := sum_map_setShutdown (.joining p.threads) nodup call
    simp only [toil, Step.price, Shutdown.toil, List.length_nil] at sum ⊢
    omega
  | @join _ _ rest call =>
    have sum := sum_map_setShutdown (.joining rest) nodup call
    simp only [toil, Step.price, Shutdown.toil, List.length_cons] at sum ⊢
    omega
  | finish call =>
    have less := sum_map_filter_key (fun x : Thread × Shutdown => x.2.toil) call
    simp only [toil, Step.price, Shutdown.toil, List.length_nil] at less ⊢
    omega
  | drop =>
    have less := toil_retired_le p.lifecycle
    simp only [toil, Step.price, List.length_nil]
    omega
  | take loop queue =>
    simp only [toil, loop, queue, Loop.toil, Loop.effort, Step.price, List.length_cons]
    rw [Nat.mul_add]
    omega
  | stopLoop loop | claimGone loop | handGone loop | discard loop | discardFatal loop
  | settle loop =>
    simp only [toil, loop, Loop.toil, Loop.effort, Step.price]
    omega
  | @claim t w loop turn =>
    refine toil_le_of_set turn rfl rfl rfl rfl rfl rfl ?_
    have same : Worker.toil load { w with ready := false } = w.toil load := rfl
    simp only [loop, same, Loop.toil, Step.price]
    omega
  | hand loop turn present empty =>
    have phase := (h.fits_of_handing loop turn).listening.1
    refine toil_le_of_set turn rfl rfl rfl rfl rfl rfl ?_
    simp only [loop, empty, phase, Loop.toil, Loop.effort, Worker.toil, Phase.effort, Step.price,
      Option.toList_some, Option.toList_none, List.length_singleton, List.length_nil]
    omega
  | announce here phase | announceStops here phase | receiveStops here phase
  | conclude here phase | concludeReported here phase | concludeFatal here phase
  | complete here phase =>
    refine toil_le_of_set here rfl rfl rfl rfl rfl rfl ?_
    simp only [phase, Worker.toil, Phase.effort, Step.price]
    omega

/-- **A step uses up what the calls have brought in.** -/
theorem Sound.toil_next (h : p.Sound) (hm : Moves p step q events)
    (nodup : (p.shutdowns.map (·.1)).Nodup) :
    q.toil load + (load * (events.filterMap Event.began?).length + 1) ≤
      p.toil load + step.price load := by
  obtain none | ⟨i, t, one⟩ := hm.began_cases
  · rw [none, List.length_nil, Nat.mul_zero, Nat.zero_add]
    exact h.toil_le hm nodup none
  · have length : (events.filterMap Event.began?).length = 1 := by
      rw [one]
      rfl
    rw [length, Nat.mul_one]
    exact hm.toil_of_began one

/-! ## Plays -/

/-- What a bound on the steps rests on: the pool is sound, and no thread is in two calls that shut it
down. -/
structure Tidy (p : Pool J) : Prop where
  sound : p.Sound
  callers : (p.shutdowns.map (·.1)).Nodup

theorem Fresh.tidy (h : p.Fresh) : p.Tidy := ⟨h.sound, by simp [h.shutdowns]⟩

theorem Fresh.toil_eq (h : p.Fresh) : p.toil load = 4 * p.workerCount + 2 := by
  have all : p.workers.map (·.toil load) = List.replicate p.workerCount 4 := by
    refine List.eq_replicate_iff.2 ⟨List.length_map .., fun n hn => ?_⟩
    obtain ⟨w, hw, rfl⟩ := List.mem_map.1 hn
    obtain ⟨i, here⟩ := List.mem_iff_getElem?.1 hw
    rw [h.workers i w here]
    rfl
  simp only [toil, all, h.waiting, h.queue, h.loop, h.lifecycle, h.threads, h.shutdowns,
    List.sum_replicate_nat, Loop.toil, Lifecycle.toil, List.map_nil, List.sum_nil, List.length_nil]
  omega

namespace Play

variable {s t : Play J}

theorem tidy_next (h : s.pool.Tidy) (moved : s.step? step = some t) : t.pool.Tidy := by
  obtain ⟨q, es, hm, rfl⟩ := moves_of_step? moved
  exact ⟨h.sound.next hm, hm.shutdowns_nodup h.callers⟩

/-- A step uses up what the calls have brought in. -/
theorem toil_next (load : Nat) (h : s.pool.Tidy) (moved : s.step? step = some t) :
    ∃ new, t.began.length = s.began.length + new ∧
      t.pool.toil load + (load * new + 1) ≤ s.pool.toil load + step.price load := by
  obtain ⟨q, es, hm, rfl⟩ := moves_of_step? moved
  refine ⟨(es.filterMap Event.began?).length, ?_, h.sound.toil_next hm h.callers⟩
  have all : ({ s with pool := q }.record es).began = s.began ++ es.filterMap Event.began? :=
    events_next ..
  rw [all, List.length_append]

/-- **A pool makes no more steps than it has in it, and its calls bring in.** -/
theorem length_add_toil_le_price {rest : List (Step J)} (tidy : s.pool.Tidy)
    (h : s.run? rest = some t) :
    rest.length + t.pool.toil 0 ≤ s.pool.toil 0 + (rest.map (·.price 0)).sum := by
  induction rest generalizing s with
  | nil =>
    cases h
    simp
  | cons step rest ih =>
    simp only [run?] at h
    split at h
    · next u hu =>
      have later := ih (tidy_next tidy hu) h
      obtain ⟨new, -, now⟩ := toil_next 0 tidy hu
      rw [List.length_cons, List.map_cons, List.sum_cons]
      omega
    · cases h

end Play

end Pool

end BatchPool
