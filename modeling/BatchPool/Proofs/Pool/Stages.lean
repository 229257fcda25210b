import BatchPool.Proofs.Pool.Handshake
import Mathlib.Algebra.Order.Group.Multiset
import Mathlib.Tactic.Abel

/-!
# The stages of a job

A job that entered the queue goes through stages: it is ahead of the workers, in a slot, at work,
done but still in flight, and in the end complete or lost. What enters a stage is still in it or has
left it, and this is one law for each stage.

* `Event.accepted?`, …: what happened, by kind.
* `Pool.ahead`, `Pool.slots`, `Pool.executing`, `Pool.settling`, `Loop.leftover`: the stages.
* `Play.conserved`: the law, for everything that every move keeps.
* `Play.accepted_eq`: the jobs that entered the queue are, in their order, those that were assigned
  to a worker and those that are ahead.
* `Play.slots_add`, `Play.executing_add`, `Play.settling_add`: the stages of the workers.
* `Play.leftover_add`: the stage of a discarded job.
-/

namespace BatchPool

namespace Pool

variable {J β : Type}

/-! ## What happened, by kind -/

namespace Event

/-- The job that entered the queue. -/
def accepted? : Event J → Option (Ticket J)
  | .accepted _ t => some t
  | _ => none

/-- The job that was assigned to a worker, whether the worker got it or was gone. -/
def assigned? : Event J → Option (Nat × Ticket J)
  | .handed i t | .discarded i t => some (i, t)
  | _ => none

/-- The job that was handed to a worker. -/
def handed? : Event J → Option (Nat × Ticket J)
  | .handed i t => some (i, t)
  | _ => none

/-- The job that was discarded. -/
def discarded? : Event J → Option (Ticket J)
  | .discarded _ t => some t
  | _ => none

/-- The job that the work function was started on. -/
def began? : Event J → Option (Nat × Ticket J)
  | .began i t => some (i, t)
  | _ => none

/-- The job that the work function has ended on. -/
def ended? : Event J → Option (Nat × Ticket J)
  | .ended i t _ => some (i, t)
  | _ => none

/-- The job that a worker completed, or that was lost with it. -/
def left? : Event J → Option (Nat × Ticket J)
  | .completed (.worker i) t | .lost (.worker i) t => some (i, t)
  | _ => none

/-- The discarded job that the loop completed, or that was lost with it. -/
def dropped? : Event J → Option (Ticket J)
  | .completed .dispatch t | .lost .dispatch t => some t
  | _ => none

end Event

@[simp] theorem filterMap_ite {α : Type} (c : Prop) [Decidable c] (a b : List α)
    (f : α → Option β) :
    (if c then a else b).filterMap f = if c then a.filterMap f else b.filterMap f :=
  apply_ite (List.filterMap f) c a b

/-! ## The stages -/

/-- The job that the loop has and that is not assigned yet. -/
def Loop.undecided : Loop J → List (Ticket J)
  | .holding t | .handing t | .discarding t => [t]
  | _ => []

/-- The discarded job that the loop has still to complete. -/
def Loop.leftover : Loop J → List (Ticket J)
  | .settling t => [t]
  | _ => []

/-- The jobs that are not assigned to a worker yet, the next one first. -/
def ahead (p : Pool J) : List (Ticket J) := p.loop.undecided ++ p.queue

/-- What the workers have, one after another. -/
def atWorkers (f : Nat → Worker J → List β) (p : Pool J) : List β := (p.workers.mapIdx f).flatten

/-- The jobs in the slots, with the index of the worker. -/
def slots (p : Pool J) : List (Nat × Ticket J) :=
  p.atWorkers fun i w => w.slot.toList.map (i, ·)

/-- The jobs that the work function is at work on. -/
def executing (p : Pool J) : List (Nat × Ticket J) :=
  p.atWorkers fun i w =>
    match w.phase with
    | .executing t => [(i, t)]
    | _ => []

/-- The jobs that are done but not complete. -/
def settling (p : Pool J) : List (Nat × Ticket J) :=
  p.atWorkers fun i w =>
    match w.phase with
    | .settling t => [(i, t)]
    | _ => []

variable {p q : Pool J} {step : Step J} {events : List (Event J)} {i : Nat} {w w' : Worker J}

/-! ## Small facts -/

theorem mem_atWorkers {f : Nat → Worker J → List β} {x : β} :
    x ∈ p.atWorkers f ↔ ∃ i w, p.workers[i]? = some w ∧ x ∈ f i w := by
  simp only [atWorkers, List.mem_flatten, List.mem_mapIdx]
  constructor
  · rintro ⟨_, ⟨i, hi, rfl⟩, hx⟩
    exact ⟨i, _, List.getElem?_eq_getElem hi, hx⟩
  · rintro ⟨i, w, hw, hx⟩
    obtain ⟨hi, rfl⟩ := List.getElem?_eq_some_iff.1 hw
    exact ⟨_, ⟨i, hi, rfl⟩, hx⟩

/-- What the workers have after one of them changed. -/
theorem coe_flatten_mapIdx_set (l : List (Worker J)) (f : Nat → Worker J → List β)
    (here : l[i]? = some w) (w' : Worker J) :
    (((l.set i w').mapIdx f).flatten : Multiset β) + (f i w : Multiset β) =
      ((l.mapIdx f).flatten : Multiset β) + (f i w' : Multiset β) := by
  induction l generalizing i f with
  | nil => simp at here
  | cons v rest ih =>
    cases i with
    | zero =>
      simp only [List.getElem?_cons_zero, Option.some.injEq] at here
      subst here
      simp only [List.set_cons_zero, List.mapIdx_cons, List.flatten_cons, ← Multiset.coe_add]
      abel
    | succ i =>
      simp only [List.getElem?_cons_succ] at here
      have := ih (fun k => f (k + 1)) here
      simp only [List.set_cons_succ, List.mapIdx_cons, List.flatten_cons, ← Multiset.coe_add]
      rw [add_assoc, this, add_assoc]

/-- What one kind of event tells of is what two other kinds tell of. -/
theorem coe_filterMap_add {f g h : Event J → Option β}
    (split : ∀ e, ((f e).toList : Multiset β) = (g e).toList + (h e).toList)
    (l : List (Event J)) :
    (l.filterMap f : Multiset β) = (l.filterMap g : Multiset β) + (l.filterMap h : Multiset β) := by
  induction l with
  | nil => rfl
  | cons e rest ih =>
    have cons : ∀ k : Event J → Option β, ((e :: rest).filterMap k : Multiset β) =
        ((k e).toList : Multiset β) + (rest.filterMap k : Multiset β) := by
      intro k
      cases hk : k e <;> simp [hk]
    rw [cons f, cons g, cons h, split e, ih]
    abel

/-- What is assigned is handed over or discarded. -/
theorem Event.coe_assigned (l : List (Event J)) :
    ((l.filterMap assigned?).map (·.2) : Multiset (Ticket J)) =
      ((l.filterMap handed?).map (·.2) : Multiset (Ticket J)) +
        (l.filterMap discarded? : Multiset (Ticket J)) := by
  have := coe_filterMap_add (f := fun e : Event J => e.assigned?.map (·.2))
    (g := fun e => e.handed?.map (·.2)) (h := discarded?)
    (fun e => by cases e <;> simp [assigned?, handed?, discarded?]) l
  simpa [List.map_filterMap] using this

theorem Fresh.atWorkers_eq_nil (h : p.Fresh) {f : Nat → Worker J → List β}
    (empty : ∀ i, f i {} = []) : p.atWorkers f = [] := by
  refine List.eq_nil_iff_forall_not_mem.2 fun x hx => ?_
  obtain ⟨i, w, here, hx⟩ := mem_atWorkers.1 hx
  rw [h.workers i w here, empty] at hx
  cases hx

namespace Play

@[simp] theorem pool_next (s : Play J) (q : Pool J) (es : List (Event J)) :
    ({ s with pool := q }.record es).pool = q := rfl

/-- What happened after a move. -/
theorem events_next (s : Play J) (q : Pool J) (es : List (Event J)) (f : Event J → Option β) :
    ({ s with pool := q }.record es).events f = s.events f ++ es.filterMap f := by
  simp [events, record]

theorem mem_events {s : Play J} {f : Event J → Option β} {x : β} :
    x ∈ s.events f ↔ ∃ e ∈ s.history, f e = some x := by
  simp [events]

/-- What depends only on a part of what happened is the same in all plays in which this part is. -/
theorem events_eq_of_view {γ : Type} {s t : Play J} {f : Event J → Option β} {view : Event J → Option γ}
    {through : γ → Option β} (blind : ∀ e, f e = (view e).bind through)
    (same : t.events view = s.events view) : t.events f = s.events f := by
  have seen : ∀ u : Play J, u.events f = (u.events view).filterMap through := by
    intro u
    rw [events, events, List.filterMap_filterMap]
    exact List.filterMap_congr fun e _ => blind e
  rw [seen, seen, same]

/-- **What enters a place is still there or has left it.** -/
theorem conserved (place : Pool J → List β) {enters leaves : Event J → Option β} (sound : p.Sound)
    (empty : place p = [])
    (law : ∀ (p : Pool J) step q events, p.Sound → Moves p step q events →
      (place q : Multiset β) + (events.filterMap leaves : Multiset β) =
        (place p : Multiset β) + (events.filterMap enters : Multiset β))
    {steps : List (Step J)} {s : Play J} (hs : Play.run? { pool := p } steps = some s) :
    (place s.pool : Multiset β) + (s.events leaves : Multiset β) =
      (s.events enters : Multiset β) := by
  refine run_induction
    (motive := fun _ s => (place s.pool : Multiset β) + (s.events leaves : Multiset β) =
      (s.events enters : Multiset β)) ?_ ?_ hs
  · simp [empty, events]
  · intro steps s step q es hs ih hm
    have hlaw := law _ _ _ _ (sound.of_run hs) hm
    simp only [pool_next, events_next, ← Multiset.coe_add]
    calc (place q : Multiset β) + (s.events leaves + es.filterMap leaves)
        = place q + es.filterMap leaves + s.events leaves := by abel
      _ = place s.pool + s.events leaves + es.filterMap enters := by rw [hlaw]; abel
      _ = s.events enters + es.filterMap enters := by rw [ih]

end Play

/-! ## Ahead of the workers -/

/-- Jobs are assigned in the order in which they entered the queue. -/
theorem Sound.ahead_law (h : p.Sound) (hm : Moves p step q events) :
    p.ahead ++ events.filterMap Event.accepted? =
      (events.filterMap Event.assigned?).map (·.2) ++ q.ahead := by
  cases hm with
  | spawnLoop starting =>
    have loop := h.unstarted (by simp [starting])
    simp [ahead, loop, Loop.undecided, List.filterMap_cons, Event.accepted?, Event.assigned?]
  | take loop queue | stopLoop loop queue =>
    simp [ahead, loop, queue, Loop.undecided, List.filterMap_cons, Event.accepted?, Event.assigned?]
  | claim loop | claimGone loop | hand loop | handGone loop | discard loop | discardFatal loop
  | settle loop =>
    simp [ahead, loop, Loop.undecided, List.filterMap_cons, Event.accepted?, Event.assigned?]
  | _ => simp [ahead, List.filterMap_cons, Event.accepted?, Event.assigned?, failStart]

/-! ## The stages of the workers -/

/-- A law of every single worker is one of all workers. -/
theorem Sound.atWorkers_law {f : Nat → Worker J → List β} {enters leaves : Event J → Option β}
    (change : ∀ i w w' events, Worker.Changes i w w' events →
      (f i w' : Multiset β) + (events.filterMap leaves : Multiset β) =
        (f i w : Multiset β) + (events.filterMap enters : Multiset β))
    (quiet : ∀ e : Event J, e.atWorker = false → enters e = none ∧ leaves e = none)
    (h : p.Sound) (hm : Moves p step q events) :
    (q.atWorkers f : Multiset β) + (events.filterMap leaves : Multiset β) =
      (p.atWorkers f : Multiset β) + (events.filterMap enters : Multiset β) := by
  obtain ⟨hw, he⟩ | ⟨i, w, w', here, hw, hc⟩ := h.change hm
  · have hl : events.filterMap leaves = [] :=
      List.filterMap_eq_nil_iff.2 fun e hmem => (quiet e (he e hmem)).2
    have hn : events.filterMap enters = [] :=
      List.filterMap_eq_nil_iff.2 fun e hmem => (quiet e (he e hmem)).1
    simp [atWorkers, hw, hl, hn]
  · have hset := coe_flatten_mapIdx_set p.workers f here w'
    have hlaw := change i w w' events hc
    unfold atWorkers
    rw [hw]
    refine add_right_cancel (b := (f i w : Multiset β)) ?_
    calc _ = (((p.workers.set i w').mapIdx f).flatten : Multiset β) + (f i w : Multiset β)
          + (events.filterMap leaves : Multiset β) := by abel
      _ = ((p.workers.mapIdx f).flatten : Multiset β)
          + ((f i w' : Multiset β) + (events.filterMap leaves : Multiset β)) := by rw [hset]; abel
      _ = _ := by rw [hlaw]; abel

/-- What is not about the job of a worker is about none of its stages. -/
theorem Event.stages_eq_none {e : Event J} (h : e.atWorker = false) :
    e.handed? = none ∧ e.began? = none ∧ e.ended? = none ∧ e.left? = none := by
  cases e with
  | completed thread | lost thread =>
    cases thread <;> simp_all [atWorker, handed?, began?, ended?, left?]
  | _ => simp_all [atWorker, handed?, began?, ended?, left?]

theorem Sound.slots_law (h : p.Sound) (hm : Moves p step q events) :
    (q.slots : Multiset (Nat × Ticket J)) + (events.filterMap Event.began? : Multiset _) =
      (p.slots : Multiset (Nat × Ticket J)) + (events.filterMap Event.handed? : Multiset _) := by
  refine h.atWorkers_law (fun i w w' events hc => ?_) (fun e he => ?_) hm
  · cases hc <;> simp [*, List.filterMap_cons, Event.began?, Event.handed?]
  · obtain ⟨handed, began, -, -⟩ := Event.stages_eq_none he
    exact ⟨handed, began⟩

theorem Sound.executing_law (h : p.Sound) (hm : Moves p step q events) :
    (q.executing : Multiset (Nat × Ticket J)) + (events.filterMap Event.ended? : Multiset _) =
      (p.executing : Multiset (Nat × Ticket J)) + (events.filterMap Event.began? : Multiset _) := by
  refine h.atWorkers_law (fun i w w' events hc => ?_) (fun e he => ?_) hm
  · cases hc with
    | stopped phase =>
      obtain phase | phase := phase <;>
        simp [phase, List.filterMap_cons, Event.began?, Event.ended?]
    | _ => simp [*, List.filterMap_cons, Event.began?, Event.ended?]
  · obtain ⟨-, began, ended, -⟩ := Event.stages_eq_none he
    exact ⟨began, ended⟩

theorem Sound.settling_law (h : p.Sound) (hm : Moves p step q events) :
    (q.settling : Multiset (Nat × Ticket J)) + (events.filterMap Event.left? : Multiset _) =
      (p.settling : Multiset (Nat × Ticket J)) + (events.filterMap Event.ended? : Multiset _) := by
  refine h.atWorkers_law (fun i w w' events hc => ?_) (fun e he => ?_) hm
  · cases hc with
    | stopped phase =>
      obtain phase | phase := phase <;>
        simp [phase, List.filterMap_cons, Event.ended?, Event.left?]
    | _ => simp [*, List.filterMap_cons, Event.ended?, Event.left?]
  · obtain ⟨-, -, ended, left⟩ := Event.stages_eq_none he
    exact ⟨ended, left⟩

/-- A discarded job is in the loop until it is complete or lost. -/
theorem Sound.leftover_law (h : p.Sound) (hm : Moves p step q events) :
    (q.loop.leftover : Multiset (Ticket J)) + (events.filterMap Event.dropped? : Multiset _) =
      (p.loop.leftover : Multiset (Ticket J)) +
        (events.filterMap Event.discarded? : Multiset _) := by
  cases hm with
  | spawnLoop starting =>
    have loop := h.unstarted (by simp [starting])
    simp [loop, Loop.leftover, List.filterMap_cons, Event.dropped?, Event.discarded?]
  | take loop | stopLoop loop | claim loop | claimGone loop | hand loop | handGone loop
  | discard loop | discardFatal loop | settle loop =>
    simp [loop, Loop.leftover, List.filterMap_cons, Event.dropped?, Event.discarded?]
  | _ => simp [List.filterMap_cons, Event.dropped?, Event.discarded?, failStart]

/-! ## Runs -/

namespace Play

/-- The jobs that were assigned to a worker, with its index, whether it got them or was gone. -/
def assigned (s : Play J) : List (Nat × Ticket J) := s.events Event.assigned?

/-- The jobs that were discarded. -/
def discarded (s : Play J) : List (Ticket J) := s.events Event.discarded?

/-- The jobs that workers completed, or that were lost with them. -/
def left (s : Play J) : List (Nat × Ticket J) := s.events Event.left?

/-- The discarded jobs that the loop completed, or that were lost with it. -/
def dropped (s : Play J) : List (Ticket J) := s.events Event.dropped?

variable {steps : List (Step J)} {s : Play J}

theorem accepted_eq_events (s : Play J) : s.accepted = s.events Event.accepted? := rfl

/-- The jobs that entered the queue are those that were assigned and those that are ahead, in this
order. -/
theorem accepted_eq (hp : p.Fresh) (hs : Play.run? { pool := p } steps = some s) :
    s.accepted = s.assigned.map (·.2) ++ s.pool.ahead := by
  refine run_induction
    (motive := fun _ s => s.accepted = s.assigned.map (·.2) ++ s.pool.ahead) ?_ ?_ hs
  · simp [accepted, assigned, events, ahead, hp.loop, hp.queue, Loop.undecided]
  · intro steps s step q es hs ih hm
    have law := (hp.sound.of_run hs).ahead_law hm
    simp only [accepted_eq_events, assigned, events_next, pool_next, List.map_append] at ih ⊢
    rw [ih, List.append_assoc, law, List.append_assoc]

/-- The jobs that entered the queue are numbered in this order. -/
theorem accepted_numbers (hp : p.Fresh) (hs : Play.run? { pool := p } steps = some s) :
    s.accepted.map (·.number) = List.range s.pool.inserted := by
  refine run_induction
    (motive := fun _ s => s.accepted.map (·.number) = List.range s.pool.inserted) ?_ ?_ hs
  · simp [accepted, events, hp.inserted]
  · intro steps s step q es hs ih hm
    simp only [accepted_eq_events, events_next, pool_next, List.map_append] at ih ⊢
    rw [ih]
    cases hm with
    | insert | offerTaken => simp [Event.accepted?, List.range_succ]
    | _ => simp [List.filterMap_cons, Event.accepted?, failStart]

/-- Their numbers are those from zero on. -/
theorem accepted_numbered (hp : p.Fresh) (hs : Play.run? { pool := p } steps = some s) :
    s.accepted.map (·.number) = List.range s.accepted.length := by
  have numbers := accepted_numbers hp hs
  have length := congrArg List.length numbers
  rw [List.length_map, List.length_range] at length
  rw [numbers, length]

theorem slots_add (hp : p.Fresh) (hs : Play.run? { pool := p } steps = some s) :
    (s.pool.slots : Multiset (Nat × Ticket J)) + (s.began : Multiset (Nat × Ticket J)) = s.handed :=
  conserved slots hp.sound (hp.atWorkers_eq_nil fun _ => rfl)
    (fun _ _ _ _ h hm => h.slots_law hm) hs

theorem executing_add (hp : p.Fresh) (hs : Play.run? { pool := p } steps = some s) :
    (s.pool.executing : Multiset (Nat × Ticket J)) + (s.ended : Multiset (Nat × Ticket J)) =
      s.began :=
  conserved executing hp.sound (hp.atWorkers_eq_nil fun _ => rfl)
    (fun _ _ _ _ h hm => h.executing_law hm) hs

theorem settling_add (hp : p.Fresh) (hs : Play.run? { pool := p } steps = some s) :
    (s.pool.settling : Multiset (Nat × Ticket J)) + (s.left : Multiset (Nat × Ticket J)) =
      s.ended :=
  conserved settling hp.sound (hp.atWorkers_eq_nil fun _ => rfl)
    (fun _ _ _ _ h hm => h.settling_law hm) hs

theorem leftover_add (hp : p.Fresh) (hs : Play.run? { pool := p } steps = some s) :
    (s.pool.loop.leftover : Multiset (Ticket J)) + (s.dropped : Multiset (Ticket J)) =
      s.discarded :=
  conserved (fun p => p.loop.leftover) hp.sound (by simp [hp.loop, Loop.leftover])
    (fun _ _ _ _ h hm => h.leftover_law hm) hs

/-- What was assigned was handed over or discarded. -/
theorem coe_assigned (s : Play J) :
    (s.assigned.map (·.2) : Multiset (Ticket J)) =
      (s.handed.map (·.2) : Multiset (Ticket J)) + (s.discarded : Multiset (Ticket J)) :=
  Event.coe_assigned s.history.reverse

/-! ## What one stage says about the stage before -/

theorem handed_subset (s : Play J) : s.handed ⊆ s.assigned := by
  intro x hx
  obtain ⟨e, he, hxe⟩ := mem_events.1 hx
  refine mem_events.2 ⟨e, he, ?_⟩
  cases e <;> cases hxe
  rfl

theorem slots_subset (hp : p.Fresh) (hs : Play.run? { pool := p } steps = some s) :
    s.pool.slots ⊆ s.handed := by
  intro x hx
  rw [← Multiset.mem_coe, ← slots_add hp hs]
  exact Multiset.mem_add.2 (.inl hx)

theorem began_subset (hp : p.Fresh) (hs : Play.run? { pool := p } steps = some s) :
    s.began ⊆ s.handed := by
  intro x hx
  rw [← Multiset.mem_coe, ← slots_add hp hs]
  exact Multiset.mem_add.2 (.inr hx)

theorem executing_subset (hp : p.Fresh) (hs : Play.run? { pool := p } steps = some s) :
    s.pool.executing ⊆ s.began := by
  intro x hx
  rw [← Multiset.mem_coe, ← executing_add hp hs]
  exact Multiset.mem_add.2 (.inl hx)

theorem ended_subset (hp : p.Fresh) (hs : Play.run? { pool := p } steps = some s) :
    s.ended ⊆ s.began := by
  intro x hx
  rw [← Multiset.mem_coe, ← executing_add hp hs]
  exact Multiset.mem_add.2 (.inr hx)

theorem settling_subset (hp : p.Fresh) (hs : Play.run? { pool := p } steps = some s) :
    s.pool.settling ⊆ s.ended := by
  intro x hx
  rw [← Multiset.mem_coe, ← settling_add hp hs]
  exact Multiset.mem_add.2 (.inl hx)

theorem left_subset (hp : p.Fresh) (hs : Play.run? { pool := p } steps = some s) :
    s.left ⊆ s.ended := by
  intro x hx
  rw [← Multiset.mem_coe, ← settling_add hp hs]
  exact Multiset.mem_add.2 (.inr hx)

theorem dropped_subset (hp : p.Fresh) (hs : Play.run? { pool := p } steps = some s) :
    s.dropped ⊆ s.discarded := by
  intro t ht
  rw [← Multiset.mem_coe, ← leftover_add hp hs]
  exact Multiset.mem_add.2 (.inr ht)

end Play

end Pool

end BatchPool
