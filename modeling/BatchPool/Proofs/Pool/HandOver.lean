import BatchPool.Proofs.Pool.Casualties

/-!
# What the loop and the workers hand over

A worker gets one job at a time, and only after it asked for it. So the token of a worker and its job
are never put where something is already, and few jobs are with the pool at once.

* `Worker.dues`: what a worker has got or has coming, and `Worker.Fits.dues_le`: this is one thing at
  most.
* `Sound.announces`, `Sound.hands`: the token and the job find their places empty.
* `Sound.gives_back`: the loop gives a job back only if its worker was killed before.
* `Sound.held_le`: the workers have one job each at most, and `Play.unfinished_le`: so few jobs are not
  finished.
* `Play.HandsOver`: what follows for the handshake and for the number of jobs.
-/

namespace BatchPool

namespace Pool

variable {J β : Type}

/-- The job that a worker is at work on, or that is done but still in flight. -/
def Worker.working (w : Worker J) : List (Ticket J) :=
  match w.phase with
  | .executing t | .settling t => [t]
  | _ => []

/-- What a worker has got or has coming. It counts its token where it is out, the token that the loop
has taken without giving the job yet, the job in its slot, and the job that it is at work on. -/
def Worker.dues (w : Worker J) (handing : Bool) : Nat :=
  w.ready.toNat + handing.toNat + w.slot.toList.length + w.working.length

/-- The jobs that entered the queue and were neither ended, nor discarded, nor lost. A job is known by
its number. -/
def Play.unfinished (s : Play J) : List (Ticket J) :=
  s.accepted.filter fun t =>
    t.number ∉ (s.ended.map (·.2) ++ s.discarded ++ s.lost).map (·.number)

/-- The handshake of a pool of `n` workers with room for `m` jobs in the queue. -/
structure Play.HandsOver (n m : Nat) (s : Play J) : Prop where
  /-- A worker has got or has coming one thing at most. -/
  once : ∀ (i : Nat) (w : Worker J), s.pool.workers[i]? = some w → w.dues (s.pool.handingTo i) ≤ 1
  /-- As long as it is there this is one thing exactly, but for the time before it says that it is
  ready. -/
  due : ∀ (i : Nat) (w : Worker J), s.pool.workers[i]? = some w → w.gone = false →
    (w.dues (s.pool.handingTo i) = 1 ↔ w.phase ≠ .unborn ∧ w.phase ≠ .announcing)
  /-- As long as the loop is at work, or is still to be started, a worker that says that it is ready
  finds no token there, and does not wait. -/
  announces : s.pool.handlesHeld = true → ∀ (i : Nat) (w : Worker J), s.pool.workers[i]? = some w →
    w.phase = .announcing → w.ready = false ∧
      ∃ u, s.step? (.announce i) = some u ∧
        u.pool.workers[i]? = some { phase := .listening, ready := true }
  /-- The loop waits for the token of a worker only while this worker is about to put it out, or has a
  job. -/
  waits : ∀ t, s.pool.loop = .holding t → s.step? .claim = none →
    ∃ w, s.pool.turn? = some w ∧ (w.phase = .announcing ∨ w.slot ≠ none ∨ w.working ≠ [])
  /-- The loop, once it has taken the token of a worker, finds the slot empty and the worker there. It
  hands the job over and does not wait. -/
  hands : ∀ t, s.pool.loop = .handing t → ∃ u,
    s.pool.turn? = some { phase := .listening } ∧ s.step? .hand = some u ∧
      u.history = .handed s.pool.cursor t :: s.history ∧ u.pool.loop = .receiving ∧
      u.pool.workers[s.pool.cursor]? = some { phase := .listening, slot := some t }
  /-- A worker with a job in its slot takes it and does not wait. -/
  takes : ∀ (i : Nat) (w : Worker J) (t : Ticket J), s.pool.workers[i]? = some w → w.slot = some t →
    ∃ u, s.step? (.receive i) = some u ∧ u.history = .began i t :: s.history ∧
      u.pool.workers[i]? = some { phase := .executing t }
  /-- The loop comes to give a job back where it would take the token, and only if the worker was
  killed before and left neither a token nor a job behind. -/
  givesBack : ∀ step u t, s.step? step = some u → u.pool.loop = .discarding t →
    s.pool.loop = .discarding t ∨
      step = .claim ∧ s.pool.loop = .holding t ∧ ∃ v, s.pool.turn? = some { phase := .dead v }
  /-- What was given back was not handed to anyone. -/
  discarded : ∀ t ∈ s.discarded, t ∉ s.handed.map (·.2)
  /-- At most `n` jobs are at work. -/
  executing : (s.pool.executing ++ s.pool.settling).length ≤ n
  /-- At most `m` jobs wait in the queue. -/
  queued : s.pool.queue.length ≤ m
  /-- The jobs that are not finished are in the queue, with the loop, or with a worker each. -/
  unfinished : s.unfinished.length ≤ m + 1 + n

variable {p q : Pool J} {step : Step J} {events : List (Event J)} {i : Nat} {w : Worker J}
  {t : Ticket J}

/-! ## One worker -/

/-- **A worker has got or has coming one thing at most.** -/
theorem Worker.Fits.dues_le {handing : Bool} (h : w.Fits handing) : w.dues handing ≤ 1 := by
  obtain ⟨phase, ready, slot⟩ := w
  cases phase with
  | listening =>
    have : ready.toNat + handing.toNat + slot.toList.length = 1 := h
    simp only [dues, working, List.length_nil]
    omega
  | stopped =>
    obtain ⟨rfl, rfl⟩ := h
    cases ready <;> simp [dues, working]
  | _ =>
    obtain ⟨rfl, rfl, rfl⟩ := h
    simp [dues, working]

/-- It is one thing exactly, from its first token on and but for the time before the next. -/
theorem Worker.Fits.dues_eq_one_iff {handing : Bool} (h : w.Fits handing) (present : w.gone = false) :
    w.dues handing = 1 ↔ w.phase ≠ .unborn ∧ w.phase ≠ .announcing := by
  obtain ⟨phase, ready, slot⟩ := w
  cases phase with
  | listening =>
    have : ready.toNat + handing.toNat + slot.toList.length = 1 := h
    simpa [dues, working] using this
  | stopped | dead => cases present
  | _ =>
    obtain ⟨rfl, rfl, rfl⟩ := h
    simp [dues, working]

/-- A worker that neither waits nor has stopped has no token out and no job in its slot. -/
theorem Worker.Fits.eq_of_busy {handing : Bool} (h : w.Fits handing) (waits : w.phase ≠ .listening)
    (works : w.phase ≠ .stopped) : w = { phase := w.phase } := by
  obtain ⟨ready, slot, -⟩ := h.of_busy waits works
  cases w
  cases ready
  cases slot
  rfl

/-! ## The handshake -/

/-- A worker that says that it is ready puts out its token. -/
theorem Sound.announces (h : p.Sound) (held : p.handlesHeld = true) (here : p.workers[i]? = some w)
    (announcing : w.phase = .announcing) : w.ready = false ∧
      Moves p (.announce i)
        { p with workers := p.workers.set i { phase := .listening, ready := true } } [] := by
  have fits := h.fits i w here
  have waits : w.phase ≠ .listening := by simp [announcing]
  have works : w.phase ≠ .stopped := by simp [announcing]
  have unready := (fits.of_busy waits works).1
  have move := Moves.announce here announcing held unready
  rw [fits.eq_of_busy waits works] at move
  exact ⟨unready, move⟩

/-- The loop waits only for a worker that is about to put out its token, or has a job. -/
theorem Sound.waits (h : p.Sound) (started : p.Started) (loop : p.loop = .holding t)
    (stuck : p.step? .claim = none) :
    ∃ w, p.turn? = some w ∧ (w.phase = .announcing ∨ w.slot ≠ none ∨ w.working ≠ []) := by
  obtain ⟨w, turn⟩ : ∃ w, p.turn? = some w := ⟨_, List.getElem?_eq_getElem h.cursor⟩
  have blocked : ∀ q events, ¬Moves p .claim q events := by
    intro q events hm
    rw [hm.step?_eq] at stuck
    cases stuck
  have unready : w.ready = false :=
    Bool.eq_false_iff.2 fun ready => blocked _ _ (.claim loop turn ready)
  have present : w.gone = false :=
    Bool.eq_false_iff.2 fun gone => blocked _ _ (.claimGone loop turn unready gone)
  have fits := h.fits _ w turn
  rw [handingTo_eq_false (by simp [loop])] at fits
  refine ⟨w, turn, ?_⟩
  cases phase : w.phase with
  | unborn =>
    have running := h.running (by simp [loop])
    exact absurd phase (started.workers _ w turn (.inl running))
  | announcing => exact .inl rfl
  | listening =>
    right
    left
    intro empty
    simp [Worker.Fits, phase, unready, empty] at fits
  | executing | settling => simp [Worker.working, phase]
  | stopped | dead => simp [Worker.gone, phase] at present

/-- The loop puts a job into the slot of the worker whose token it has taken. -/
theorem Sound.hands (h : p.Sound) (loop : p.loop = .handing t) :
    p.turn? = some { phase := .listening } ∧
      Moves p .hand
        { p with
          workers := p.workers.set p.cursor { phase := .listening, slot := some t }
          loop := .receiving
          cursor := (p.cursor + 1) % p.workerCount }
        [.handed p.cursor t] := by
  obtain ⟨w, turn⟩ : ∃ w, p.turn? = some w := ⟨_, List.getElem?_eq_getElem h.cursor⟩
  obtain ⟨phase, ready, slot⟩ := (h.fits_of_handing loop turn).listening
  obtain rfl : w = { phase := .listening } := by
    rw [← phase, ← ready, ← slot]
  exact ⟨turn, .hand loop turn rfl rfl⟩

/-- A worker takes the job that is in its slot. -/
theorem Sound.takes (h : p.Sound) (here : p.workers[i]? = some w) (slot : w.slot = some t) :
    Moves p (.receive i) { p with workers := p.workers.set i { phase := .executing t } }
      [.began i t] := by
  obtain ⟨phase, ready, -⟩ := (h.fits i w here).of_slot slot
  have move := Moves.receive here phase slot
  rwa [ready] at move

/-- **The loop gives a job back only if the worker was killed before it could ask for one.** -/
theorem Sound.gives_back (h : p.Sound) (hm : Moves p step q events) (back : q.loop = .discarding t) :
    p.loop = .discarding t ∨
      step = .claim ∧ p.loop = .holding t ∧ ∃ v, p.turn? = some { phase := .dead v } := by
  cases hm with
  | claimGone loop turn _ gone =>
    cases back
    have held := h.held (by simp [loop]) (by simp [loop, Loop.ended])
    obtain ⟨v, dead⟩ := h.dead_of_gone held turn gone
    obtain ⟨w, here, phase⟩ := mem_dead.1 dead
    have left := (h.fits _ w here).eq_of_busy (by simp [phase]) (by simp [phase])
    rw [phase] at left
    exact .inr ⟨rfl, loop, v, by rw [turn?, here, left]⟩
  | handGone loop turn gone =>
    -- A worker whose token was taken waits for its job.
    rw [(h.fits_of_handing loop turn).not_gone] at gone
    cases gone
  | spawnLoop | take | stopLoop | claim | hand | discard | discardFatal | settle => cases back
  | _ => exact .inl back

/-! ## The number of jobs -/

/-- What is with the workers in one of three ways, if each worker has one thing at most. -/
theorem length_flatten_mapIdx_le {l : List (Worker J)} {f g k : Nat → Worker J → List β}
    (each : ∀ i w, l[i]? = some w → (f i w).length + (g i w).length + (k i w).length ≤ 1) :
    (l.mapIdx f).flatten.length + (l.mapIdx g).flatten.length + (l.mapIdx k).flatten.length ≤
      l.length := by
  induction l generalizing f g k with
  | nil => simp
  | cons w rest ih =>
    have first := each 0 w rfl
    have others := @ih (fun i => f (i + 1)) (fun i => g (i + 1)) (fun i => k (i + 1)) fun i v here =>
      each (i + 1) v here
    simp only [List.mapIdx_cons, List.flatten_cons, List.length_append, List.length_cons]
    omega

/-- **The workers have one job each at most.** -/
theorem Sound.held_le (h : p.Sound) :
    (p.slots ++ p.executing ++ p.settling).length ≤ p.workerCount := by
  rw [List.length_append, List.length_append]
  refine length_flatten_mapIdx_le fun i w here => ?_
  have one : w.slot.toList.length + w.working.length ≤ 1 := by
    have dues := (h.fits i w here).dues_le
    unfold Worker.dues at dues
    omega
  cases phase : w.phase with
  | executing | settling => simpa [Worker.working, phase] using one
  | _ => simp

namespace Play

variable {steps : List (Step J)} {s : Play J}

/-- What is not finished is ahead of the workers, in a slot or at work. -/
theorem unfinished_subset (hp : p.Fresh) (hs : Play.run? { pool := p } steps = some s) :
    s.unfinished ⊆
      s.pool.ahead ++ (s.pool.slots ++ s.pool.executing ++ s.pool.settling).map (·.2) := by
  intro t ht
  obtain ⟨accepted, out⟩ := List.mem_filter.1 ht
  have out : t ∉ s.ended.map (·.2) ++ s.discarded ++ s.lost := fun h =>
    of_decide_eq_true out (List.mem_map_of_mem h)
  simp only [List.mem_append, not_or] at out
  obtain ⟨⟨unended, undiscarded⟩, -⟩ := out
  rw [accepted_eq hp hs, List.mem_append] at accepted
  rw [List.mem_append]
  obtain assigned | ahead := accepted
  · right
    rw [← Multiset.mem_coe, coe_assigned, Multiset.mem_add] at assigned
    have handed := assigned.resolve_right undiscarded
    obtain ⟨⟨i, t⟩, hx, rfl⟩ := List.mem_map.1 (Multiset.mem_coe.1 handed)
    rw [← Multiset.mem_coe, ← slots_add hp hs, ← executing_add hp hs] at hx
    refine List.mem_map.2 ⟨(i, t), ?_, rfl⟩
    have unended : (i, t) ∉ s.ended := fun h => unended (List.mem_map_of_mem h)
    simp only [Multiset.mem_add, Multiset.mem_coe, unended, or_false] at hx
    exact List.mem_append_left _ (List.mem_append.2 hx)
  · exact .inl ahead

/-- **The jobs that are not finished** are in the queue, with the loop, or with a worker each. -/
theorem unfinished_le (hp : p.Fresh) (hs : Play.run? { pool := p } steps = some s) :
    s.unfinished.length ≤ p.capacity + 1 + p.workerCount := by
  have nodup : s.unfinished.Nodup := (accepted_nodup hp hs).filter _
  have all := (nodup.subperm (unfinished_subset hp hs)).length_le
  have loop : s.pool.loop.undecided.length ≤ 1 := by
    cases s.pool.loop <;> simp [Loop.undecided]
  have queue := queue_le hp hs
  have held := (hp.sound.of_run hs).held_le
  rw [workerCount_eq hs] at held
  rw [List.length_append, List.length_map, ahead, List.length_append] at all
  omega

/-- **The handshake is never stuck, nothing is put on top of something else, and the number of jobs is
bounded.** -/
theorem handsOver {c : PoolConfig} {processors : Nat} (hp : create c processors = .ok p)
    (hs : Play.run? { pool := p } steps = some s) :
    s.HandsOver (c.workers processors) c.queueCapacity := by
  have fresh := Fresh.of_create hp
  have sound := fresh.sound.of_run hs
  rw [← workerCount_of_create hp, ← capacity_of_create hp]
  exact {
    once := fun i w here => (sound.fits i w here).dues_le
    due := fun i w here present => (sound.fits i w here).dues_eq_one_iff present
    announces := fun held i w here announcing => by
      obtain ⟨unready, move⟩ := sound.announces held here announcing
      exact ⟨unready, _, step?_of_moves move, getElem?_set_here here _⟩
    waits := fun t loop stuck => by
      have stuck := congrArg Option.isSome stuck
      rw [isSome_step?, Option.isSome_none, Option.isSome_eq_false_iff, Option.isNone_iff_eq_none] at stuck
      exact sound.waits (started fresh hs) loop stuck
    hands := fun t loop => by
      obtain ⟨turn, move⟩ := sound.hands loop
      exact ⟨_, turn, step?_of_moves move, rfl, rfl, getElem?_set_here turn _⟩
    takes := fun i w t here slot =>
      ⟨_, step?_of_moves (sound.takes here slot), rfl, getElem?_set_here here _⟩
    givesBack := fun step u t hstep back => by
      obtain ⟨q, events, hm, rfl⟩ := moves_of_step? hstep
      exact sound.gives_back hm back
    discarded := fun t discarded handed => by
      rw [← skipped_map] at discarded
      have apart := (List.nodup_append.1 (handed_append_skipped_nodup fresh hs)).2.2
      exact apart t handed t discarded rfl
    executing := by
      have held := sound.held_le
      rw [workerCount_eq hs, List.append_assoc, List.length_append] at held
      exact Nat.le_trans (Nat.le_add_left _ _) held
    queued := queue_le fresh hs
    unfinished := unfinished_le fresh hs }

/-- A run of a pool of two workers with room for one job: job 10 is done, and then the workers, the loop
and the queue are filled. -/
def crowdedRun : List (Step Nat) :=
  [.start (.client 0), .spawn false, .spawn false, .spawn false, .announce 0, .announce 1,
    .offer (.client 0) 10, .take, .claim, .hand, .receive 0, .conclude 0 .done false, .complete 0,
    .announce 0, .offer (.client 0) 20, .take, .claim, .hand, .receive 1, .offer (.client 0) 30, .take,
    .claim, .hand, .offer (.client 0) 40, .take, .offer (.client 0) 50]

theorem handsOver_crowdedRun :
    ∃ s, Play.run? { pool := mixedPool } crowdedRun = some s ∧
      s.unfinished.length = 1 + 1 + 2 ∧ s.HandsOver 2 1 :=
  ⟨_, rfl, rfl, handsOver (c := { queueCapacity := 1, workerCount := some 2, threadName := "a" })
    (show create _ 1 = .ok mixedPool from rfl) (show Play.run? _ crowdedRun = _ from rfl)⟩

end Play

end Pool

end BatchPool
