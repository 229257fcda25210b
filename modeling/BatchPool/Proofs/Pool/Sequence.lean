import BatchPool.Pool.Single
import BatchPool.Proofs.Pool.Whole

/-!
# One job after another

A pool of one worker does what a sequential interpreter does that takes the jobs in the order in
which they entered the queue: it starts on a job, ends it, reports it if it failed or panicked, and
only then goes on.

* `Observation`: what can be seen of the work function and of the sink; `Play.observed`.
* `sequential`: what can be seen of the interpreter.
* `Play.InSequence`: how a pool of one worker stands to it, kept by every move.
* `Play.Sequenced`: what follows for every run.
-/

namespace BatchPool

namespace Pool

variable {J : Type}

/-- What can be seen: the work function starts on a job, it ends, and a report is made. -/
inductive Observation (J : Type) where
  | started (ticket : Ticket J)
  | ended (ticket : Ticket J) (outcome : Outcome)
  | reported (thread : Thread) (report : Report)

/-- What can be seen of an event. -/
def Event.observation? : Event J → Option (Observation J)
  | .began _ t => some (.started t)
  | .ended _ t outcome => some (.ended t outcome)
  | .reported thread report => some (.reported thread report)
  | _ => none

/-- A job that was done, with its outcome. -/
def Event.conclusion? : Event J → Option (Ticket J × Outcome)
  | .ended _ t outcome => some (t, outcome)
  | _ => none

/-- A job that a thread enqueued. -/
def Event.acceptedBy? (thread : Thread) : Event J → Option (Ticket J)
  | .accepted caller t => if caller = thread then some t else none
  | _ => none

/-- The job of a call that a thread begins by a step. -/
def Step.jobOf? (thread : Thread) : Step J → Option J
  | .enqueue caller job | .offer caller job => if caller = thread then some job else none
  | _ => none

/-- The job that the work function is at work on. -/
def Worker.running (w : Worker J) : List (Ticket J) :=
  match w.phase with
  | .executing t => [t]
  | _ => []

/-! ## The interpreter -/

/-- What can be seen when the interpreter does a job: its start and its end, and a report directly
behind it if it failed or panicked. -/
def jobTrace (t : Ticket J) : Outcome → List (Observation J)
  | .done => [.started t, .ended t .done]
  | .failed failure =>
    [.started t, .ended t (.failed failure), .reported (.worker 0) (.failed 0 failure)]
  | .panicked text =>
    [.started t, .ended t (.panicked text), .reported (.worker 0) (.panicked 0 text)]

/-- The only worker of a pool tells the sink what the interpreter tells it. -/
theorem jobTrace_eq (t : Ticket J) (outcome : Outcome) :
    jobTrace t outcome =
      .started t :: .ended t outcome :: (outcome.report? 0).toList.map (.reported (.worker 0)) := by
  cases outcome <;> rfl

/-- What can be seen of an interpreter that does jobs one after another. -/
def sequential (work : Ticket J → Outcome) : List (Ticket J) → List (Observation J)
  | [] => []
  | t :: rest => jobTrace t (work t) ++ sequential work rest

theorem sequential_append (work : Ticket J → Outcome) (a b : List (Ticket J)) :
    sequential work (a ++ b) = sequential work a ++ sequential work b := by
  induction a with
  | nil => rfl
  | cons t rest ih => simp [sequential, ih]

/-- The interpreter ends a job before it does anything else. -/
theorem ended_of_started {work : Ticket J → Outcome} {jobs : List (Ticket J)} {t : Ticket J}
    {before after : List (Observation J)}
    (h : sequential work jobs = before ++ .started t :: after) :
    ∃ rest, after = .ended t (work t) :: rest := by
  induction jobs generalizing before with
  | nil => simp [sequential] at h
  | cons u rest ih =>
    rw [sequential, jobTrace_eq, List.cons_append, List.cons_append, List.cons_eq_append_iff] at h
    obtain ⟨rfl, h⟩ | ⟨before, rfl, h⟩ := h
    · simp only [List.cons.injEq, Observation.started.injEq] at h
      obtain ⟨rfl, rfl⟩ := h
      exact ⟨_, rfl⟩
    · rw [List.cons_eq_append_iff] at h
      obtain ⟨rfl, h⟩ | ⟨before, rfl, h⟩ := h
      · simp at h
      · cases hr : (work u).report? 0 with
        | none =>
          rw [hr] at h
          exact ih (by simpa using h)
        | some report =>
          rw [hr] at h
          simp only [Option.toList_some, List.map_cons, List.map_nil, List.singleton_append,
            List.cons_eq_append_iff] at h
          obtain ⟨rfl, h⟩ | ⟨before, rfl, h⟩ := h
          · simp at h
          · exact ih h

namespace Play

/-- What can be seen of a play. -/
def observed (s : Play J) : List (Observation J) := s.events Event.observation?

/-- The jobs that were done, with their outcomes. -/
def conclusions (s : Play J) : List (Ticket J × Outcome) := s.events Event.conclusion?

/-- The jobs that a thread enqueued. -/
def acceptedBy (s : Play J) (thread : Thread) : List (Ticket J) := s.events (Event.acceptedBy? thread)

/-- The outcomes of the play are those of the given work function. -/
def Follows (work : Ticket J → Outcome) (s : Play J) : Prop :=
  ∀ x ∈ s.conclusions, work x.1 = x.2

/-- A pool of one worker has done its jobs one after another, as far as it has come: it may have
started on one more, and have yet another one in its slot. -/
def InSequence (s : Play J) : Prop :=
  ∃ w, s.pool.workers = [w] ∧
    s.observed = s.conclusions.flatMap (fun x => jobTrace x.1 x.2) ++ w.running.map .started ∧
      s.began.map (·.2) = s.conclusions.map (·.1) ++ w.running ∧
        s.handed.map (·.2) = s.began.map (·.2) ++ w.slot.toList

variable {p q : Pool J} {steps : List (Step J)} {s : Play J} {step : Step J} {es : List (Event J)}

/-! ## Steps -/

/-- A pool of one worker has no other. -/
theorem only_worker {l : List (Worker J)} {w v : Worker J} {i : Nat} (one : l = [w])
    (here : l[i]? = some v) : i = 0 ∧ v = w ∧ ∀ w', l.set i w' = [w'] := by
  subst one
  obtain ⟨less, rfl⟩ := List.getElem?_eq_some_iff.1 here
  have : i = 0 := by simpa using less
  subst this
  exact ⟨rfl, rfl, fun _ => rfl⟩

/-- A pool of one worker stays in sequence if what is seen in a step fits where its worker is then. -/
theorem inSequence_record {w : Worker J} (workers : q.workers = [w])
    (observed : s.observed ++ es.filterMap Event.observation? =
      (s.conclusions ++ es.filterMap Event.conclusion?).flatMap (fun x => jobTrace x.1 x.2) ++
        w.running.map .started)
    (began : s.began.map (·.2) ++ (es.filterMap Event.began?).map (·.2) =
      s.conclusions.map (·.1) ++ (es.filterMap Event.conclusion?).map (·.1) ++ w.running)
    (handed : s.handed.map (·.2) ++ (es.filterMap Event.handed?).map (·.2) =
      s.began.map (·.2) ++ (es.filterMap Event.began?).map (·.2) ++ w.slot.toList) :
    ({ s with pool := q }.record es).InSequence := by
  refine ⟨w, workers, ?_, ?_, ?_⟩
  · rw [Play.observed, Play.conclusions, events_next, events_next]
    exact observed
  · rw [Play.began, Play.conclusions, events_next, events_next, List.map_append, List.map_append]
    exact began
  · rw [Play.began, Play.handed, events_next, events_next, List.map_append, List.map_append]
    exact handed

/-- **A move without a fatal report keeps a pool of one worker in sequence.** -/
theorem InSequence.next (h : s.InSequence) (sound : s.pool.Sound) (whole : s.pool.Whole)
    (hm : Moves s.pool step q es) (calm : step.panics = false) :
    ({ s with pool := q }.record es).InSequence := by
  obtain ⟨w, one, observed, began, handed⟩ := h
  cases hm with
  | discard loop | discardFatal loop => exact absurd loop (whole.loop _).1
  | concludeFatal => cases calm
  | @spawnWorker caller n v starting here =>
    have new := sound.newborn n (by rw [starting]; rfl) n v (Nat.le_refl n) here
    obtain ⟨rfl, rfl, set⟩ := only_worker one here
    subst new
    refine inSequence_record (set _) ?_ ?_ ?_
    · simpa [Worker.running, List.filterMap_cons, Event.observation?, Event.conclusion?] using observed
    · simpa [Worker.running, List.filterMap_cons, Event.began?, Event.conclusion?] using began
    · simpa [List.filterMap_cons, Event.began?, Event.handed?] using handed
  | claim _ turn =>
    obtain ⟨-, rfl, set⟩ := only_worker one turn
    refine inSequence_record (set _) ?_ ?_ ?_
    · simpa [Worker.running] using observed
    · simpa [Worker.running] using began
    · simpa using handed
  | hand _ turn _ empty =>
    obtain ⟨-, rfl, set⟩ := only_worker one turn
    refine inSequence_record (set _) ?_ ?_ ?_
    · simpa [Worker.running, List.filterMap_cons, Event.observation?, Event.conclusion?] using observed
    · simpa [Worker.running, List.filterMap_cons, Event.began?, Event.conclusion?] using began
    · simp [handed, empty, Event.began?, Event.handed?]
  | announce here phase | announceStops here phase | receiveStops here phase
  | complete here phase =>
    obtain ⟨rfl, rfl, set⟩ := only_worker one here
    refine inSequence_record (set _) ?_ ?_ ?_
    · simpa [Worker.running, phase, List.filterMap_cons, Event.observation?, Event.conclusion?]
        using observed
    · simpa [Worker.running, phase, List.filterMap_cons, Event.began?, Event.conclusion?] using began
    · simpa [List.filterMap_cons, Event.began?, Event.handed?] using handed
  | receive here phase slot =>
    obtain ⟨rfl, rfl, set⟩ := only_worker one here
    refine inSequence_record (set _) ?_ ?_ ?_
    · simp [observed, Worker.running, phase, Event.observation?, Event.conclusion?]
    · simp [began, Worker.running, phase, Event.began?, Event.conclusion?]
    · simp [handed, slot, Event.began?, Event.handed?]
  | conclude here phase _ report | concludeReported here phase _ report =>
    obtain ⟨rfl, rfl, set⟩ := only_worker one here
    refine inSequence_record (set _) ?_ ?_ ?_
    · simp [observed, Worker.running, phase, Event.observation?, Event.conclusion?, jobTrace_eq, report]
    · simp [began, Worker.running, phase, List.filterMap_cons, Event.began?, Event.conclusion?]
    · simp [handed, List.filterMap_cons, Event.began?, Event.handed?]
  | _ =>
    refine inSequence_record one ?_ ?_ ?_
    · simpa [List.filterMap_cons, Event.observation?, Event.conclusion?, failStart] using observed
    · simpa [List.filterMap_cons, Event.began?, Event.conclusion?, failStart] using began
    · simpa [List.filterMap_cons, Event.began?, Event.handed?, failStart] using handed

/-! ## Runs -/

theorem inSequence (hp : p.Fresh) (one : p.workerCount = 1)
    (hs : Play.run? { pool := p } steps = some s) (calm : ∀ step ∈ steps, step.panics = false) :
    s.InSequence := by
  refine run_induction
    (motive := fun steps s => (∀ step ∈ steps, step.panics = false) → s.InSequence) ?_ ?_ hs calm
  · intro _
    obtain ⟨w, hw⟩ := List.length_eq_one_iff.1 one
    have new := hp.workers 0 w (by simp [hw])
    subst new
    exact ⟨_, hw, rfl, rfl, rfl⟩
  · intro steps s step q es hs ih hm calm
    simp only [List.mem_append, List.mem_singleton] at calm
    have before := fun step h => calm step (.inl h)
    exact (ih before).next (hp.sound.of_run hs) (whole hp hs before).1 hm (calm step (.inr rfl))

/-- The jobs that entered the queue, in their order: those that were handed over, and those that are
ahead. -/
theorem accepted_eq_handed (hp : p.Fresh) (hs : Play.run? { pool := p } steps = some s)
    (calm : ∀ step ∈ steps, step.panics = false) :
    s.accepted = s.handed.map (·.2) ++ s.pool.ahead := by
  have none := (whole hp hs calm).2
  have same : s.assigned = s.handed := by
    refine List.filterMap_congr fun e he => ?_
    cases e with
    | discarded i t =>
      have := List.filterMap_eq_nil_iff.1 none _ he
      cases this
    | _ => rfl
  rw [accepted_eq hp hs, same]

/-- The interpreter starts on the next job first. -/
theorem started_isPrefix (work : Ticket J → Outcome) (w : Worker J) (rest : List (Ticket J)) :
    w.running.map Observation.started <+: sequential work (w.running ++ rest) := by
  unfold Worker.running
  split
  · next t _ =>
    rw [List.singleton_append, sequential, jobTrace_eq]
    exact List.prefix_append [Observation.started t] _
  · exact List.nil_prefix

theorem sequential_conclusions {work : Ticket J → Outcome} (follows : s.Follows work) :
    sequential work (s.conclusions.map (·.1)) =
      s.conclusions.flatMap fun x => jobTrace x.1 x.2 := by
  unfold Follows at follows
  generalize s.conclusions = l at follows
  induction l with
  | nil => rfl
  | cons x rest ih =>
    rw [List.map_cons, sequential, follows x List.mem_cons_self, List.flatMap_cons,
      ih fun y hy => follows y (List.mem_cons_of_mem _ hy)]

/-- A job has only one outcome. -/
theorem exists_follows (nodup : (s.conclusions.map (·.1.number)).Nodup) :
    ∃ work, s.Follows work := by
  refine ⟨fun t => ((s.conclusions.find? fun x => x.1.number = t.number).map (·.2)).getD .done, ?_⟩
  intro x hx
  have found := find?_of_mem (fun x : Ticket J × Outcome => x.1.number) nodup hx
  simp only at found ⊢
  rw [found]
  rfl

/-! ## The calls of a thread -/

/-- The job of a call enters the queue after the jobs of the calls that its thread made before. -/
theorem acceptedBy_law (hm : Moves p step q es) (thread : Thread) :
    ((es.filterMap (Event.acceptedBy? thread)).map (·.job) ++
        (q.waitingJob? thread).toList).Sublist
      ((p.waitingJob? thread).toList ++ (step.jobOf? thread).toList) := by
  rw [hm.waitingJob_next thread]
  cases hm with
  | @enqueue caller job free =>
    by_cases same : caller = thread
    · subst same
      simp [waitingJob?, waitingOf?_of_mayCall free, Step.waitingJob, Step.jobOf?]
    · simp [same, Step.waitingJob, Step.jobOf?]
  | @insert caller c call | @rollback caller c call =>
    by_cases same : caller = thread
    · subst same
      simp [waitingJob?, call, Step.waitingJob, Event.acceptedBy?, List.filterMap_cons]
    · simp [same, Step.waitingJob, Event.acceptedBy?, List.filterMap_cons]
  | @offerTaken caller job free =>
    by_cases same : caller = thread
    · subst same
      simp [waitingJob?, waitingOf?_of_mayCall free, Step.waitingJob, Step.jobOf?,
        Event.acceptedBy?]
    · simp [same, Step.waitingJob, Step.jobOf?, Event.acceptedBy?]
  | _ => simp [Step.waitingJob, List.filterMap_cons, Event.acceptedBy?, failStart]

/-- What a thread enqueues enters the queue in the order of its calls. The job of its call that
waits is the last one. -/
theorem acceptedBy_sublist (hp : p.Fresh) (hs : Play.run? { pool := p } steps = some s)
    (thread : Thread) :
    ((s.acceptedBy thread).map (·.job) ++ (s.pool.waitingJob? thread).toList).Sublist
      (steps.filterMap (Step.jobOf? thread)) := by
  refine run_induction
    (motive := fun steps s => ((s.acceptedBy thread).map (·.job) ++
      (s.pool.waitingJob? thread).toList).Sublist (steps.filterMap (Step.jobOf? thread))) ?_ ?_ hs
  · simp [acceptedBy, events, waitingJob?, waitingOf?, hp.waiting]
  · intro steps s step q es hs ih hm
    have last : [step].filterMap (Step.jobOf? thread) = (step.jobOf? thread).toList := by
      cases h : step.jobOf? thread <;> simp [h]
    rw [acceptedBy] at ih ⊢
    rw [events_next, List.filterMap_append, List.map_append, List.append_assoc, last]
    refine ((acceptedBy_law hm thread).append_left _).trans ?_
    rw [← List.append_assoc]
    exact ih.append_right _

/-! ## The refinement -/

/-- What is in both of two lists, the one being a part of the other without repetitions. -/
theorem filter_mem_of_sublist {a l : List Nat} (part : a.Sublist l) (nodup : l.Nodup) :
    l.filter (· ∈ a) = a := by
  induction part with
  | slnil => rfl
  | @cons a l n part ih =>
    rw [List.nodup_cons] at nodup
    have absent : n ∉ a := fun h => nodup.1 (part.subset h)
    simpa [absent] using ih nodup.2
  | @cons_cons a l n part ih =>
    rw [List.nodup_cons] at nodup
    have rest : l.filter (· ∈ n :: a) = l.filter (· ∈ a) :=
      List.filter_congr fun m hm => by
        have : m ≠ n := fun h => nodup.1 (h ▸ hm)
        simp [this]
    rw [List.filter_cons_of_pos (by simp), rest, ih nodup.2]

/-- What a thread enqueued is a part of what entered the queue. -/
theorem acceptedBy_accepted (s : Play J) (thread : Thread) :
    (s.acceptedBy thread).Sublist s.accepted := by
  rw [acceptedBy, accepted_eq_events, events, events]
  induction s.history.reverse with
  | nil => exact List.Sublist.slnil
  | cons e rest ih =>
    cases e with
    | accepted caller t =>
      by_cases same : caller = thread
      · simpa [Event.acceptedBy?, Event.accepted?, same] using ih
      · simpa [Event.acceptedBy?, Event.accepted?, same] using ih.cons t
    | _ => exact ih

/-- A pool of one worker does its jobs as the interpreter does. The given steps have led to it from
a pool that was started. -/
structure Sequenced (steps : List (Step J)) (s : Play J) : Prop where
  /-- No job has two outcomes. -/
  outcomes : ∃ work, s.Follows work
  /-- What can be seen is the beginning of what can be seen of the interpreter. -/
  refines : ∀ work, s.Follows work → s.observed <+: sequential work s.accepted
  /-- It is all of it when a call returns that has waited until no job is in flight. -/
  idle : ∀ caller t, s.step? (.idle caller) = some t →
    ∀ work, s.Follows work → s.observed = sequential work s.accepted
  /-- The work function is at work on one job at most. -/
  alone : s.pool.executing.length ≤ 1
  /-- It starts on no other job before it has ended. -/
  apart : ∀ before after t, s.observed = before ++ .started t :: after →
    after = [] ∨ ∃ outcome rest, after = .ended t outcome :: rest
  /-- It starts on the jobs in the order in which they entered the queue. -/
  order : s.began.map (·.2) <+: s.accepted
  /-- It starts on the jobs of a thread in the order in which these entered the queue. -/
  own : ∀ thread, (s.began.map (·.2.number)).filter (· ∈ (s.acceptedBy thread).map (·.number)) <+:
    (s.acceptedBy thread).map (·.number)
  /-- They entered it in the order of the calls that the thread made. -/
  calls : ∀ thread, ((s.acceptedBy thread).map (·.job)).Sublist
    (steps.filterMap (Step.jobOf? thread))

/-- A pool of one worker without a job holds none, neither in its worker nor ahead of it. -/
theorem only_worker_free {w : Worker J} (only : s.pool.workers = [w]) (none : s.pool.jobs = 0) :
    w.running = [] ∧ w.slot = .none ∧ s.pool.ahead = [] := by
  -- Calls that wait are not counted here.
  have rest : ({ s.pool with waiting := [] } : Pool J).AtRest :=
    atRest_iff.2 (show 0 + s.pool.jobs = 0 by omega)
  have mem : w ∈ s.pool.workers := by simp [only]
  refine ⟨?_, rest.slots w mem, ?_⟩
  · unfold Worker.running
    split
    · next t phase => exact absurd phase (rest.workers w mem t).1
    · rfl
  · rw [Pool.ahead, (List.append_eq_nil_iff.1 rest.loop).1, rest.queue]
    rfl

/-- In a pool of one worker without a job, all jobs are done, in the order in which they entered the
queue. -/
theorem conclusions_eq_accepted (hp : p.Fresh) (one : p.workerCount = 1)
    (hs : Play.run? { pool := p } steps = some s) (calm : ∀ step ∈ steps, step.panics = false)
    (none : s.pool.jobs = 0) :
    s.conclusions.map (·.1) = s.accepted ∧
      s.observed = s.conclusions.flatMap fun x => jobTrace x.1 x.2 := by
  obtain ⟨w, only, observed, began, handed⟩ := inSequence hp one hs calm
  obtain ⟨free, slot, ahead⟩ := only_worker_free only none
  rw [accepted_eq_handed hp hs calm, handed, began, observed, free, ahead, slot]
  simp

/-- Its worker was started on all of them, in that order. -/
theorem began_eq_accepted (hp : p.Fresh) (one : p.workerCount = 1)
    (hs : Play.run? { pool := p } steps = some s) (calm : ∀ step ∈ steps, step.panics = false)
    (none : s.pool.jobs = 0) : s.began.map (·.2) = s.accepted := by
  obtain ⟨w, only, -, -, handed⟩ := inSequence hp one hs calm
  obtain ⟨-, slot, ahead⟩ := only_worker_free only none
  rw [accepted_eq_handed hp hs calm, handed, ahead, slot]
  simp

/-- In a pool of one worker without a job in flight, all that can be seen of the interpreter was
seen. -/
theorem observed_of_idle (hp : p.Fresh) (one : p.workerCount = 1)
    (hs : Play.run? { pool := p } steps = some s) (calm : ∀ step ∈ steps, step.panics = false)
    (none : s.pool.inFlight = 0) {work : Ticket J → Outcome} (follows : s.Follows work) :
    s.observed = sequential work s.accepted := by
  rw [inFlight_eq hp hs] at none
  obtain ⟨accepted, observed⟩ := conclusions_eq_accepted hp one hs calm (by omega)
  rw [observed, ← accepted, sequential_conclusions follows]

/-- What can be seen of a pool of one worker is the beginning of what can be seen of the
interpreter. -/
theorem observed_isPrefix (hp : p.Fresh) (one : p.workerCount = 1)
    (hs : Play.run? { pool := p } steps = some s) (calm : ∀ step ∈ steps, step.panics = false)
    {work : Ticket J → Outcome} (follows : s.Follows work) :
    s.observed <+: sequential work s.accepted := by
  obtain ⟨w, only, observed, began, handed⟩ := inSequence hp one hs calm
  have jobs : s.accepted =
      s.conclusions.map (·.1) ++ (w.running ++ (w.slot.toList ++ s.pool.ahead)) := by
    rw [accepted_eq_handed hp hs calm, handed, began]
    simp
  rw [jobs, sequential_append, sequential_conclusions follows, observed]
  exact List.prefix_append_right_inj _ |>.2 (started_isPrefix work w _)

/-- A pool of one worker that is started is a new pool after some steps. -/
theorem single_run {capacity client : Nat} {start : Play J}
    (made : single capacity client = .ok start) :
    ∃ p : Pool J, p.Fresh ∧ p.workerCount = 1 ∧
      Play.run? { pool := p } (singleStart client) = some start := by
  unfold single at made
  split at made
  · cases made
  · next p created =>
    split at made
    · next s hs =>
      cases made
      exact ⟨p, .of_create created, workerCount_of_create created, hs⟩
    · cases made

/-- **A pool of one worker refines the interpreter.** -/
theorem sequenced {capacity client : Nat} {start : Play J}
    (made : single capacity client = .ok start) (hs : start.run? steps = some s)
    (calm : ∀ step ∈ steps, step.panics = false) : s.Sequenced steps := by
  obtain ⟨p, fresh, one, started⟩ := single_run made
  have run : Play.run? { pool := p } (singleStart client ++ steps) = some s := by
    rw [run?_append, started]
    exact hs
  have quiet : ∀ step ∈ (singleStart client : List (Step J)) ++ steps, step.panics = false := by
    intro step h
    obtain h | h := List.mem_append.1 h
    · simp only [singleStart, List.mem_cons, List.not_mem_nil, or_false] at h
      obtain rfl | rfl | rfl := h <;> rfl
    · exact calm step h
  obtain ⟨w, only, observed, began, handed⟩ := inSequence fresh one run quiet
  have order : s.began.map (·.2) <+: s.accepted := by
    rw [accepted_eq_handed fresh run quiet, handed, List.append_assoc]
    exact List.prefix_append _ _
  have numbers : (s.accepted.map (·.number)).Nodup := by
    rw [accepted_numbers fresh run]
    exact List.nodup_range
  have outcomes : ∃ work, s.Follows work := by
    refine exists_follows (numbers.sublist (List.Sublist.trans ?_ (order.sublist.map _)))
    rw [began, List.map_append, List.map_map]
    exact List.sublist_append_left _ _
  have refines := fun work (follows : s.Follows work) => observed_isPrefix fresh one run quiet follows
  exact {
    outcomes := outcomes
    refines := refines
    idle := fun caller t ht work follows => by
      obtain ⟨q, es, hm, -⟩ := moves_of_step? ht
      cases hm with
      | idle _ none => exact observed_of_idle fresh one run quiet none follows
    alone := by
      simp only [executing, atWorkers, only, List.mapIdx_cons, List.mapIdx_nil, List.flatten_cons,
        List.flatten_nil, List.append_nil]
      split <;> simp
    apart := fun before after t h => by
      obtain ⟨work, follows⟩ := outcomes
      obtain ⟨rest, hrest⟩ := refines work follows
      rw [h, List.append_assoc] at hrest
      obtain ⟨rest', hafter⟩ := ended_of_started hrest.symm
      cases after with
      | nil => exact .inl rfl
      | cons e later =>
        obtain ⟨rfl, -⟩ := List.cons.inj hafter
        exact .inr ⟨_, _, rfl⟩
    order := order
    own := fun thread => by
      have := (order.map Ticket.number).filter (· ∈ (s.acceptedBy thread).map (·.number))
      rw [filter_mem_of_sublist ((acceptedBy_accepted s thread).map _) numbers] at this
      rwa [List.map_map] at this
    calls := fun thread => by
      have all := acceptedBy_sublist fresh run thread
      rw [List.filterMap_append] at all
      exact (List.sublist_append_left _ _).trans all }

/-- A run of a pool of one worker with room for one job: job 10 fails, job 20 panics, job 30 is at
work, and the call for job 40 waits while the queue is closed. -/
def narrowRun : List (Step Nat) :=
  [.announce 0, .enqueue (.client 0) 10, .insert (.client 0), .take, .claim, .hand, .receive 0,
    .offer (.client 1) 20, .offer (.client 1) 21, .conclude 0 (.failed (.stated "a")) false, .complete 0,
    .announce 0, .take, .claim, .hand, .receive 0, .conclude 0 (.panicked none) false, .complete 0,
    .idle (.client 2), .announce 0, .enqueue (.client 0) 30, .insert (.client 0), .take, .claim,
    .hand, .receive 0, .offer (.client 1) 31, .enqueue (.client 0) 40, .close (.client 2)]

theorem sequenced_narrowRun :
    ∃ start s : Play Nat, single 1 7 = .ok start ∧ start.run? narrowRun = some s ∧
      s.observed = [
        .started { number := 0, job := 10 },
        .ended { number := 0, job := 10 } (.failed (.stated "a")),
        .reported (.worker 0) (.failed 0 (.stated "a")),
        .started { number := 1, job := 20 },
        .ended { number := 1, job := 20 } (.panicked none),
        .reported (.worker 0) (.panicked 0 none),
        .started { number := 2, job := 30 }] ∧
      s.Sequenced narrowRun :=
  have made : single 1 7 = .ok (_ : Play Nat) := rfl
  ⟨_, _, made, rfl, rfl, sequenced made rfl (by decide)⟩

end Play

end Pool

end BatchPool
