import BatchPool.Proofs.Pool.Calls

/-!
# Where a job is

A job that entered the queue is at one place: in the queue, with the loop, in the slot of a worker,
with a worker, or, when it is no longer with anybody, complete or lost.

* `Pool.Place`: the places, and `Play.places` what is where.
* `Play.coe_places`: the jobs at all places are those that entered the queue.
* `Play.Accounted`: what follows for every job and every call of a run.
-/

namespace BatchPool

namespace Pool

variable {J : Type}

/-- Where a job can be. Who has lost a job was killed by its report. -/
inductive Place where
  | queue
  | loop
  | slot (worker : Nat)
  | worker (index : Nat)
  | ended (worker : Nat)
  | discarded
  | lost (thread : Thread)
  deriving Repr, DecidableEq

/-- The place of a job that is no longer with anybody. -/
def Event.place? : Event J → Option (Place × Ticket J)
  | .completed (.worker i) t => some (.ended i, t)
  | .completed .dispatch t => some (.discarded, t)
  | .lost (.worker i) t => some (.lost (.worker i), t)
  | .lost .dispatch t => some (.lost .dispatch, t)
  | _ => none

/-- What is where. -/
def Play.places (s : Play J) : List (Place × Ticket J) :=
  s.pool.queue.map (.queue, ·) ++ (s.pool.loop.undecided ++ s.pool.loop.leftover).map (.loop, ·) ++
    s.pool.slots.map (fun x => (.slot x.1, x.2)) ++
    (s.pool.executing ++ s.pool.settling).map (fun x => (.worker x.1, x.2)) ++
    s.events Event.place?

/-- Every job and every call of a run is accounted for. -/
structure Play.Accounted (steps : List (Step J)) (s : Play J) : Prop where
  /-- A job that entered the queue is at one place. -/
  somewhere : ∀ t ∈ s.accepted, ∃! place, (place, t) ∈ s.places
  /-- It is there only once, and two jobs that entered the queue are never the same. -/
  once : (s.places.map (·.2)).Nodup
  /-- Nothing else is anywhere. -/
  known : ∀ x ∈ s.places, x.2 ∈ s.accepted
  /-- The work function is started on a job once at most. -/
  startedOnce : (s.began.map (·.2)).Nodup
  /-- It was started by worker `i` on the jobs that are with this worker, or ended or lost there. -/
  started : ∀ i t, (i, t) ∈ s.began ↔
    (.worker i, t) ∈ s.places ∨ (.ended i, t) ∈ s.places ∨ (.lost (.worker i), t) ∈ s.places
  /-- What has ended at a worker was done by it. -/
  ended : ∀ i t, (.ended i, t) ∈ s.places → ∃ outcome, .ended i t outcome ∈ s.history
  /-- What ended as a discarded job was discarded in the turn of a worker. -/
  discarded : ∀ t, (.discarded, t) ∈ s.places → ∃ i, .discarded i t ∈ s.history
  /-- A call waits, or its job entered the queue, or it was refused. -/
  answered : (calls steps : Multiset J) = (s.pool.waiting.map (·.job) : Multiset J) +
    (s.accepted.map (·.job) : Multiset J) + (s.refused : Multiset J)
  /-- The work function is started for no call that was refused. -/
  unstarted : (s.began.map (·.2.job) : Multiset J) + (s.refused : Multiset J) ≤ calls steps
  /-- A job that is in no two calls is refused or starts, but not both. -/
  refused : (calls steps).Nodup → ∀ job ∈ s.refused,
    job ∉ s.accepted.map (·.job) ∧ job ∉ s.began.map (·.2.job)

variable {p : Pool J}

/-! ## Small facts -/

/-- An event is about a job that leaves a worker or the loop, or about none that leaves. -/
theorem Event.gone_cases (e : Event J) :
    (e.place? = none ∧ e.left? = none ∧ e.dropped? = none) ∨
      (∃ i t, e = .completed (.worker i) t ∨ e = .lost (.worker i) t) ∨
      ∃ t, e = .completed .dispatch t ∨ e = .lost .dispatch t := by
  cases e with
  | completed thread | lost thread => cases thread <;> simp [place?, left?, dropped?]
  | _ => simp [place?, left?, dropped?]

/-- What is no longer with anybody left a worker or the loop. -/
theorem Play.coe_gone (s : Play J) :
    ((s.events Event.place?).map (·.2) : Multiset (Ticket J)) =
      (s.left.map (·.2) : Multiset (Ticket J)) + (s.dropped : Multiset (Ticket J)) := by
  have := coe_filterMap_add (f := fun e : Event J => e.place?.map (·.2))
    (g := fun e => e.left?.map (·.2)) (h := Event.dropped?)
    (fun e => by
      obtain ⟨place, left, dropped⟩ | ⟨i, t, rfl | rfl⟩ | ⟨t, rfl | rfl⟩ := e.gone_cases
      · simp [place, left, dropped]
      all_goals simp [Event.place?, Event.left?, Event.dropped?])
    s.history.reverse
  simpa [left, dropped, events, List.map_filterMap] using this

/-- **The jobs at all places are those that entered the queue.** -/
theorem Play.coe_places {steps : List (Step J)} {s : Play J} (hp : p.Fresh)
    (hs : Play.run? { pool := p } steps = some s) :
    (s.places.map (·.2) : Multiset (Ticket J)) = s.accepted := by
  have jobs : ∀ {a b c : List (Nat × Ticket J)},
      (a : Multiset (Nat × Ticket J)) + (b : Multiset (Nat × Ticket J)) = c →
      (a.map (·.2) : Multiset (Ticket J)) + (b.map (·.2) : Multiset (Ticket J)) =
        (c.map (·.2) : Multiset (Ticket J)) := fun h => by
    simpa only [Multiset.map_add, Multiset.map_coe] using congrArg (Multiset.map (·.2)) h
  have lists : s.places.map (·.2) =
      s.pool.queue ++ (s.pool.loop.undecided ++ s.pool.loop.leftover) ++ s.pool.slots.map (·.2) ++
        (s.pool.executing.map (·.2) ++ s.pool.settling.map (·.2)) ++
        (s.events Event.place?).map (·.2) := by
    simp [Play.places, Function.comp_def]
  rw [lists, accepted_eq hp hs, ahead]
  simp only [← Multiset.coe_add, coe_gone, coe_assigned]
  rw [← jobs (slots_add hp hs), ← jobs (executing_add hp hs), ← jobs (settling_add hp hs),
    ← leftover_add hp hs]
  abel

/-! ## What follows for one job -/

/-- No two jobs that entered the queue are the same. -/
theorem Play.accepted_nodup {steps : List (Step J)} {s : Play J} (hp : p.Fresh)
    (hs : Play.run? { pool := p } steps = some s) : s.accepted.Nodup := by
  refine List.Nodup.of_map (·.number) ?_
  rw [accepted_numbers hp hs]
  exact List.nodup_range

/-- What is in a list of pairs with different second components stands there with one first
component. -/
theorem existsUnique_fst {α β : Type} {l : List (α × β)} (nodup : (l.map (·.2)).Nodup) {b : β}
    (mem : b ∈ l.map (·.2)) : ∃! a, (a, b) ∈ l := by
  obtain ⟨⟨a, b⟩, hx, rfl⟩ := List.mem_map.1 mem
  refine ⟨a, hx, fun c hc => ?_⟩
  have := List.inj_on_of_nodup_map nodup hc hx rfl
  exact congrArg Prod.fst this

namespace Play

variable {s : Play J} {i : Nat} {t : Ticket J}

theorem worker_mem_places :
    (.worker i, t) ∈ s.places ↔ (i, t) ∈ s.pool.executing ∨ (i, t) ∈ s.pool.settling := by
  have gone : ∀ e : Event J, e.place? ≠ some (.worker i, t) := by
    intro e
    obtain ⟨place, -⟩ | ⟨j, u, rfl | rfl⟩ | ⟨u, rfl | rfl⟩ := e.gone_cases
    · simp [place]
    all_goals simp [Event.place?]
  simp [places, mem_events, gone]

/-- What is no longer with a worker was completed there or lost. -/
theorem left_mem_places :
    (i, t) ∈ s.left ↔ (.ended i, t) ∈ s.places ∨ (.lost (.worker i), t) ∈ s.places := by
  have event : ∀ e : Event J, e.left? = some (i, t) ↔
      e.place? = some (.ended i, t) ∨ e.place? = some (.lost (.worker i), t) := by
    intro e
    obtain ⟨place, left, -⟩ | ⟨j, u, rfl | rfl⟩ | ⟨u, rfl | rfl⟩ := e.gone_cases
    · simp [place, left]
    all_goals simp [Event.place?, Event.left?]
  simp [places, left, mem_events, event, and_or_left, exists_or]

theorem discarded_mem_places :
    (.discarded, t) ∈ s.places → t ∈ s.dropped := by
  have event : ∀ e : Event J, e.place? = some (.discarded, t) → e.dropped? = some t := by
    intro e
    obtain ⟨place, -⟩ | ⟨j, u, rfl | rfl⟩ | ⟨u, rfl | rfl⟩ := e.gone_cases
    · simp [place]
    all_goals simp [Event.place?, Event.dropped?]
  intro h
  simp only [places, List.mem_append, List.mem_map, Prod.mk.injEq, reduceCtorEq, false_and,
    and_false, exists_false, false_or, mem_events] at h
  obtain ⟨e, he, hp⟩ := h
  exact mem_events.2 ⟨e, he, event e hp⟩

/-- Jobs that entered the queue are handed over, each once. -/
theorem handed_le {steps : List (Step J)} (hp : p.Fresh)
    (hs : Play.run? { pool := p } steps = some s) :
    (s.handed.map (·.2) : Multiset (Ticket J)) ≤ s.accepted := by
  have assigned : (s.handed.map (·.2) : Multiset (Ticket J)) ≤ (s.assigned.map (·.2) : List _) := by
    rw [coe_assigned]
    exact Multiset.le_add_right _ _
  have accepted : ((s.assigned.map (·.2) : List _) : Multiset (Ticket J)) ≤ s.accepted := by
    rw [accepted_eq hp hs, ← Multiset.coe_add]
    exact Multiset.le_add_right _ _
  exact assigned.trans accepted

/-- The work function is started on jobs that entered the queue, once on each. -/
theorem began_le {steps : List (Step J)} (hp : p.Fresh)
    (hs : Play.run? { pool := p } steps = some s) :
    (s.began.map (·.2) : Multiset (Ticket J)) ≤ s.accepted := by
  have handed : (s.began : Multiset (Nat × Ticket J)) ≤ s.handed := by
    rw [← slots_add hp hs]
    exact Multiset.le_add_left _ _
  have began := Multiset.map_le_map (f := (·.2)) handed
  simp only [Multiset.map_coe] at began
  exact began.trans (handed_le hp hs)

/-- **No job is lost, no job is done twice, and no refused job is done.** -/
theorem accounted {c : PoolConfig} {processors : Nat} (hp : create c processors = .ok p)
    {steps : List (Step J)} (hs : Play.run? { pool := p } steps = some s) : s.Accounted steps := by
  have fresh := Fresh.of_create hp
  have places : (s.places.map (·.2)).Perm s.accepted :=
    Multiset.coe_eq_coe.1 (coe_places fresh hs)
  have nodup := accepted_nodup fresh hs
  have once := places.nodup_iff.2 nodup
  have answered := calls_eq fresh hs
  have began := began_le fresh hs
  have jobs : (s.began.map (·.2.job) : Multiset J) ≤ (s.accepted.map (·.job) : List J) := by
    simpa [Function.comp_def] using Multiset.map_le_map (f := (·.job)) began
  exact {
    somewhere := fun t ht => existsUnique_fst once (places.mem_iff.2 ht)
    once := once
    known := fun x hx => places.mem_iff.1 (List.mem_map_of_mem hx)
    startedOnce := by
      have := Multiset.nodup_of_le began (Multiset.coe_nodup.2 nodup)
      exact Multiset.coe_nodup.1 this
    started := fun i t => by
      rw [worker_mem_places, ← left_mem_places, ← Multiset.mem_coe, ← executing_add fresh hs,
        ← settling_add fresh hs]
      simp [or_assoc]
    ended := fun i t h => by
      have ended := left_subset fresh hs (left_mem_places.2 (.inl h))
      obtain ⟨e, he, ht⟩ := mem_events.1 ended
      cases e <;> cases ht
      exact ⟨_, he⟩
    discarded := fun t h => by
      have discarded := dropped_subset fresh hs (discarded_mem_places h)
      obtain ⟨e, he, ht⟩ := mem_events.1 discarded
      cases e <;> cases ht
      exact ⟨_, he⟩
    answered := answered
    unstarted := by
      rw [answered]
      exact add_le_add_left (jobs.trans (Multiset.le_add_left _ _)) _
    refused := fun distinct job hr => by
      have all := Multiset.coe_nodup.2 distinct
      rw [answered] at all
      have apart := (Multiset.nodup_add.1 all).2.2
      have unaccepted : job ∉ (s.accepted.map (·.job) : Multiset J) := fun ha =>
        Multiset.disjoint_left.1 apart (Multiset.mem_add.2 (.inr ha)) hr
      exact ⟨unaccepted, fun hb => unaccepted (Multiset.mem_of_le jobs hb)⟩ }

/-- A pool of two workers with room for one job in the queue. -/
def mixedPool : Pool Nat := { name := "a", capacity := 1, workers := [{}, {}] }

/-- A run of this pool: job 10 enqueues job 20 and is lost with its worker, job 20 is done, job 30
finds no room, job 35 is discarded, and job 40 is refused. -/
def mixedRun : List (Step Nat) :=
  [.start (.client 0), .spawn false, .spawn false, .spawn false, .announce 0, .announce 1,
    .enqueue (.client 0) 10, .insert (.client 0), .take, .claim, .hand, .receive 0,
    .enqueue (.worker 0) 20, .insert (.worker 0), .conclude 0 (.panicked none) true,
    .offer (.client 1) 30, .take, .claim, .hand, .receive 1, .offer (.client 1) 35, .take, .claim,
    .discard false, .enqueue (.client 0) 40, .close (.client 1), .refuse (.client 0),
    .conclude 1 .done false, .rollback (.client 0), .complete 1, .settle]

theorem accounted_mixedRun :
    ∃ s, Play.run? { pool := mixedPool } mixedRun = some s ∧ s.Accounted mixedRun :=
  ⟨_, rfl, accounted (c := { queueCapacity := 1, workerCount := some 2, threadName := "a" })
    (show create _ 1 = .ok mixedPool from rfl) rfl⟩

end Play

end Pool

end BatchPool
