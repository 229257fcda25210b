import BatchPool.Proofs.Pool.RoundRobin

/-!
# Joining the threads of a pool

A call that shuts a pool down takes over the threads that nobody has joined yet, and joins one after
another when it has ended. So a thread of a running pool is still to be taken over, or a call has
still to join it, or it has ended.

* `Pool.ownThreads`: the workers and the loop, and `Pool.Exited`: all of them have ended.
* `Sound.exited_next`: a thread that has ended stays so.
* `Pool.Joined`: the law of the threads that were started; `Play.joined`: it holds after every run.
* `Pool.Owned`: only threads of the pool are joined.
* `Play.exited_of_joined`: once no call that shuts a running pool down is left, after one has taken
  over its threads, all have ended.
-/

namespace BatchPool

namespace Pool

variable {J : Type}

/-- The threads of a pool: its workers and its loop. -/
def ownThreads (p : Pool J) : List Thread := (List.range p.workerCount).map .worker ++ [.dispatch]

/-- The threads that were started, while a pool is being started and when it runs. -/
def startedThreads (p : Pool J) : List Thread :=
  match p.lifecycle with
  | .starting _ n => (List.range n).map .worker
  | .running => p.ownThreads
  | _ => []

/-- All threads of the pool have ended. -/
def Exited (p : Pool J) : Prop := ∀ thread ∈ p.ownThreads, p.exited thread = true

instance (p : Pool J) : Decidable p.Exited :=
  inferInstanceAs (Decidable (∀ thread ∈ p.ownThreads, p.exited thread = true))

/-- A thread that was started is still to be taken over, or a call has still to join it, or it has
ended. The threads of a pool that was given up are not joined. -/
def Joined (p : Pool J) : Prop :=
  ∀ thread ∈ p.startedThreads, thread ∈ p.threads ∨
    (∃ caller rest, (caller, .joining rest) ∈ p.shutdowns ∧ thread ∈ rest) ∨
      p.exited thread = true ∨ p.dropped = true

/-- The threads that are taken over and joined are those of the pool. -/
structure Owned (p : Pool J) : Prop where
  threads : ∀ thread ∈ p.threads, thread ∈ p.ownThreads
  joining : ∀ caller rest, (caller, .joining rest) ∈ p.shutdowns →
    ∀ thread ∈ rest, thread ∈ p.ownThreads

variable {p q : Pool J} {step : Step J} {events : List (Event J)} {caller : Thread}

/-! ## Small facts -/

theorem exited_worker_iff {i : Nat} :
    p.exited (.worker i) = true ↔ ∃ w, p.workers[i]? = some w ∧ w.gone = true := by
  unfold exited
  cases h : p.workers[i]? <;> simp [h]

theorem exited_iff :
    p.Exited ↔ p.loop.ended = true ∧
      ∀ (i : Nat) (w : Worker J), p.workers[i]? = some w → w.gone = true := by
  constructor
  · intro all
    refine ⟨all .dispatch (by simp [ownThreads]), fun i w here => ?_⟩
    have less : i < p.workerCount := (List.getElem?_eq_some_iff.1 here).1
    obtain ⟨v, hv, gone⟩ := exited_worker_iff.1 (all (.worker i) (by simp [ownThreads, less]))
    rw [here] at hv
    cases hv
    exact gone
  · rintro ⟨loop, workers⟩ thread hthread
    simp only [ownThreads, List.mem_append, List.mem_map, List.mem_range, List.mem_singleton]
      at hthread
    obtain ⟨i, less, rfl⟩ | rfl := hthread
    · have here := List.getElem?_eq_getElem (show i < p.workers.length from less)
      exact exited_worker_iff.2 ⟨_, here, workers i _ here⟩
    · exact loop

theorem mem_of_lookup {κ β : Type} [DecidableEq κ] {l : List (κ × β)} {k : κ} {b : β}
    (h : l.lookup k = some b) : (k, b) ∈ l := by
  obtain ⟨before, behind, all, -⟩ := List.lookup_eq_some_iff.1 h
  simp [all]

theorem mem_of_shutdownOf? {stage : Shutdown} (h : p.shutdownOf? caller = some stage) :
    (caller, stage) ∈ p.shutdowns :=
  mem_of_lookup h

/-- A call that shuts the pool down is the only one of its thread. -/
theorem mem_shutdowns_iff (nodup : (p.shutdowns.map (·.1)).Nodup) {stage : Shutdown} :
    (caller, stage) ∈ p.shutdowns ↔ p.shutdownOf? caller = some stage := by
  unfold shutdownOf?
  generalize p.shutdowns = l at nodup
  induction l with
  | nil => simp
  | cons x rest ih =>
    obtain ⟨c, other⟩ := x
    simp only [List.map_cons, List.nodup_cons, List.mem_map, not_exists, not_and] at nodup
    have ih := ih nodup.2
    by_cases hc : caller = c
    · subst hc
      have absent : (caller, stage) ∉ rest := fun h => nodup.1 _ h rfl
      simp [absent, eq_comm]
    · simp [hc, List.lookup_cons, ih, beq_false_of_ne hc]

/-- The other calls that shut the pool down go on as they are. -/
theorem mem_setShutdown_of_ne {other : Thread} {stage stage' : Shutdown}
    (h : (other, stage) ∈ p.shutdowns) (ne : other ≠ caller) :
    (other, stage) ∈ (p.setShutdown caller stage').shutdowns :=
  List.mem_map.2 ⟨_, h, by simp [ne]⟩

theorem mem_setShutdown_self {stage stage' : Shutdown} (h : p.shutdownOf? caller = some stage) :
    (caller, stage') ∈ (p.setShutdown caller stage').shutdowns :=
  List.mem_map.2 ⟨(caller, stage), mem_of_shutdownOf? h, by simp⟩

/-! ## Steps -/

theorem Moves.shutdowns_nodup (hm : Moves p step q events)
    (nodup : (p.shutdowns.map (·.1)).Nodup) : (q.shutdowns.map (·.1)).Nodup := by
  have keys : ∀ (caller : Thread) (stage : Shutdown),
      (p.setShutdown caller stage).shutdowns.map (·.1) = p.shutdowns.map (·.1) := by
    intro caller stage
    simp only [setShutdown, List.map_map]
    refine List.map_congr_left fun x _ => ?_
    simp only [Function.comp_apply]
    split <;> simp_all
  cases hm with
  | @shutDown caller free =>
    simp only [mayCall, busy, Bool.and_eq_true, Bool.not_eq_true', Bool.or_eq_false_iff] at free
    have absent := List.any_eq_false.1 free.1.2.1.2
    rw [List.map_append, List.nodup_append]
    refine ⟨nodup, by simp, ?_⟩
    rintro a ha b hb rfl
    simp only [List.map_cons, List.map_nil, List.mem_singleton] at hb
    obtain ⟨x, hx, rfl⟩ := List.mem_map.1 ha
    exact absent x hx (by simpa using hb)
  | retire | collect | join =>
    rw [keys]
    exact nodup
  | finish => exact nodup.sublist (List.filter_sublist.map _)
  | _ => exact nodup

/-- A thread that has ended stays so. -/
theorem Sound.exited_next (h : p.Sound) (hm : Moves p step q events) {thread : Thread}
    (exited : p.exited thread = true) : q.exited thread = true := by
  cases thread with
  | client => cases exited
  | worker i =>
    obtain ⟨w, here, gone⟩ := exited_worker_iff.1 exited
    have less : i < q.workers.length := by
      have count : q.workers.length = p.workers.length := hm.workerCount_eq
      rw [count]
      exact (List.getElem?_eq_some_iff.1 here).1
    refine exited_worker_iff.2 ⟨_, List.getElem?_eq_getElem less, ?_⟩
    refine h.gone_next hm (List.getElem?_eq_getElem less) fun v hv => ?_
    rw [here] at hv
    cases hv
    exact gone
  | dispatch =>
    cases hm with
    | spawnLoop starting =>
      simp [Pool.exited, h.unstarted (by simp [starting]), Loop.ended] at exited
    | take loop | stopLoop loop | claim loop | claimGone loop | hand loop | handGone loop
    | discard loop | discardFatal loop | settle loop =>
      simp [Pool.exited, loop, Loop.ended] at exited
    | _ => exact exited

/-- A step of another call leaves a call that joins as it is. -/
theorem joining_setShutdown {stage stage' : Shutdown} (nodup : (p.shutdowns.map (·.1)).Nodup)
    (call : p.shutdownOf? caller = some stage) {thread : Thread}
    (other : ∀ rest, stage = .joining rest → thread ∉ rest)
    (joins : ∃ caller rest, (caller, .joining rest) ∈ p.shutdowns ∧ thread ∈ rest) :
    ∃ other rest, (other, .joining rest) ∈ (p.setShutdown caller stage').shutdowns ∧
      thread ∈ rest := by
  obtain ⟨c, rest, mem, hthread⟩ := joins
  refine ⟨c, rest, mem_setShutdown_of_ne mem ?_, hthread⟩
  rintro rfl
  rw [mem_shutdowns_iff nodup, call, Option.some.injEq] at mem
  exact other rest mem hthread

/-- Where no thread is started, it is enough to follow what the law says of each: a thread that nobody
has taken over stays so or is taken over, and a call that is to join it does not forget it. -/
theorem Sound.joined_of_quiet (h : p.Sound) (hm : Moves p step q events) (joined : p.Joined)
    (lifecycle : q.lifecycle = p.lifecycle)
    (threads : ∀ thread ∈ p.threads, thread ∈ q.threads ∨
      ∃ caller rest, (caller, .joining rest) ∈ q.shutdowns ∧ thread ∈ rest)
    (calls : ∀ thread, (∃ caller rest, (caller, .joining rest) ∈ p.shutdowns ∧ thread ∈ rest) →
      (∃ caller rest, (caller, .joining rest) ∈ q.shutdowns ∧ thread ∈ rest) ∨
        q.exited thread = true)
    (dropped : p.dropped = true → q.dropped = true) : q.Joined := by
  intro thread hthread
  have same : thread ∈ p.startedThreads := by
    simpa only [startedThreads, ownThreads, lifecycle, hm.workerCount_eq] using hthread
  obtain mem | call | exited | drop := joined thread same
  · exact (threads thread mem).imp_right .inl
  · exact .inr ((calls thread call).imp_right .inl)
  · exact .inr (.inr (.inl (h.exited_next hm exited)))
  · exact .inr (.inr (.inr (dropped drop)))

/-- **A move keeps the law of the threads that were started.** -/
theorem Sound.joined_next (h : p.Sound) (hm : Moves p step q events)
    (nodup : (p.shutdowns.map (·.1)).Nodup) (joined : p.Joined) : q.Joined := by
  have exits : ∀ thread, p.exited thread = true → q.exited thread = true :=
    fun _ => h.exited_next hm
  have quiet := h.joined_of_quiet hm joined
  cases hm with
  | startFirst | spawnFails =>
    intro thread hthread
    simp [startedThreads] at hthread
  | @spawnWorker caller n w starting here =>
    intro thread hthread
    simp only [startedThreads, List.range_succ, List.map_append, List.mem_append] at hthread
    obtain old | new := hthread
    · have := joined thread (by simpa [startedThreads, starting] using old)
      exact (this.imp (List.mem_append_left _) (Or.imp_right (Or.imp_left (exits thread))))
    · exact .inl (List.mem_append_right _ (by simpa using new))
  | @spawnLoop caller n starting last =>
    intro thread hthread
    simp only [startedThreads, ownThreads, List.mem_append] at hthread
    obtain old | new := hthread
    · obtain ⟨i, less, rfl⟩ := List.mem_map.1 old
      have all : p.workers.length ≤ n := List.getElem?_eq_none_iff.1 last
      have less : i < p.workers.length := List.mem_range.1 less
      have := joined (.worker i) (by simp [startedThreads, starting]; omega)
      exact (this.imp (List.mem_append_left _) (Or.imp_right (Or.imp_left (exits _))))
    · exact .inl (List.mem_append_right _ new)
  | shutDown =>
    refine quiet rfl (fun _ => .inl) (fun thread call => .inl ?_) id
    obtain ⟨c, rest, mem, hthread⟩ := call
    exact ⟨c, rest, List.mem_append_left _ mem, hthread⟩
  | retire call =>
    by_cases stopped : p.lifecycle = Lifecycle.stopped
    · intro thread hthread
      simp [startedThreads, stopped] at hthread
    · exact quiet (by simp [stopped]) (fun _ => .inl)
        (fun thread joins => .inl (joining_setShutdown nodup call (by simp) joins)) id
  | collect call =>
    refine quiet rfl (fun thread mem => .inr ?_)
      (fun thread joins => .inl (joining_setShutdown nodup call (by simp) joins)) id
    exact ⟨_, p.threads, mem_setShutdown_self call, mem⟩
  | @join caller t rest call ended =>
    refine quiet rfl (fun _ => .inl) (fun thread joins => ?_) id
    by_cases this : thread = t
    · exact .inr (this ▸ ended)
    · by_cases mine : thread ∈ rest
      · exact .inl ⟨caller, rest, mem_setShutdown_self call, mine⟩
      · refine .inl (joining_setShutdown nodup call ?_ joins)
        rintro _ ⟨⟩ mem
        exact (List.mem_cons.1 mem).elim this mine
  | @finish caller call =>
    refine quiet rfl (fun _ => .inl) (fun thread joins => .inl ?_) id
    obtain ⟨c, rest, mem, hthread⟩ := joins
    refine ⟨c, rest, List.mem_filter.2 ⟨mem, ?_⟩, hthread⟩
    have ne : c ≠ caller := by
      rintro rfl
      rw [mem_shutdowns_iff nodup, call] at mem
      cases mem
      cases hthread
    simpa using ne
  | drop =>
    intro thread _
    exact .inr (.inr (.inr rfl))
  | _ => exact quiet rfl (fun _ => .inl) (fun _ => .inl) id

/-- The calls that shut the pool down after one of them went on. -/
theorem mem_of_mem_setShutdown {stage : Shutdown} {x : Thread × Shutdown}
    (hx : x ∈ (p.setShutdown caller stage).shutdowns) : x ∈ p.shutdowns ∨ x = (caller, stage) := by
  obtain ⟨y, hy, rfl⟩ := List.mem_map.1 hx
  split
  · exact .inr rfl
  · exact .inl hy

/-- Only threads of the pool are started, and so only those are joined. -/
theorem Owned.next (h : p.Owned) (hm : Moves p step q events) : q.Owned := by
  have own : q.ownThreads = p.ownThreads := by rw [ownThreads, ownThreads, hm.workerCount_eq]
  constructor
  · rw [own]
    cases hm with
    | @spawnWorker caller n w starting here =>
      have less : n < p.workerCount := (List.getElem?_eq_some_iff.1 here).1
      intro thread hthread
      obtain old | new := List.mem_append.1 hthread
      · exact h.threads thread old
      · rw [List.mem_singleton.1 new]
        simp [ownThreads, less]
    | spawnLoop =>
      intro thread hthread
      obtain old | new := List.mem_append.1 hthread
      · exact h.threads thread old
      · rw [List.mem_singleton.1 new]
        simp [ownThreads]
    | collect | drop => simp
    | _ => exact h.threads
  · rw [own]
    intro caller rest mem
    cases hm with
    | shutDown =>
      obtain old | new := List.mem_append.1 mem
      · exact h.joining caller rest old
      · simp at new
    | retire =>
      obtain old | new := mem_of_mem_setShutdown mem
      · exact h.joining caller rest old
      · cases new
    | collect =>
      obtain old | new := mem_of_mem_setShutdown mem
      · exact h.joining caller rest old
      · cases new
        exact h.threads
    | join call =>
      obtain old | new := mem_of_mem_setShutdown mem
      · exact h.joining caller rest old
      · cases new
        exact fun thread hthread =>
          h.joining caller _ (mem_of_shutdownOf? call) thread (List.mem_cons_of_mem _ hthread)
    | finish => exact h.joining caller rest (List.mem_of_mem_filter mem)
    | _ => exact h.joining caller rest mem

/-! ## Runs -/

namespace Play

variable {steps : List (Step J)} {s : Play J}

/-- Only threads of the pool are joined. -/
theorem owned (hp : p.Fresh) (hs : Play.run? { pool := p } steps = some s) : s.pool.Owned :=
  run_induction (motive := fun _ s => s.pool.Owned) ⟨by simp [hp.threads], by simp [hp.shutdowns]⟩
    (fun _ _ _ _ _ _ ih hm => ih.next hm) hs

/-- No thread is in two calls that shut the pool down. -/
theorem shutdowns_callers (hp : p.Fresh) (hs : Play.run? { pool := p } steps = some s) :
    (s.pool.shutdowns.map (·.1)).Nodup :=
  run_induction (motive := fun _ s => (s.pool.shutdowns.map (·.1)).Nodup)
    (by simp [hp.shutdowns]) (fun _ _ _ _ _ _ ih hm => hm.shutdowns_nodup ih) hs

/-- **A run keeps the law of the threads that were started.** -/
theorem joined (hp : p.Fresh) (hs : Play.run? { pool := p } steps = some s) : s.pool.Joined := by
  refine run_induction (motive := fun _ s => s.pool.Joined) ?_ ?_ hs
  · intro thread hthread
    simp [startedThreads, hp.lifecycle] at hthread
  · exact fun _ _ _ _ _ hs ih hm =>
      (hp.sound.of_run hs).joined_next hm (shutdowns_callers hp hs) ih

/-- Once a call has taken over the threads of a running pool, and no call that shuts it down is
left, they have all ended. -/
theorem exited_of_joined (hp : p.Fresh) (hs : Play.run? { pool := p } steps = some s)
    (running : s.pool.lifecycle = .running) (kept : s.pool.dropped = false)
    (threads : s.pool.threads = []) (returned : s.pool.shutdowns = []) : s.pool.Exited := by
  intro thread hthread
  have := joined hp hs thread (by simpa [startedThreads, running] using hthread)
  simpa [threads, returned, kept] using this

end Play

end Pool

end BatchPool
