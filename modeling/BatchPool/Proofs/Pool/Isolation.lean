import Mathlib.Data.List.Forall2
import BatchPool.Proofs.Pool.Steered

/-!
# Jobs that fail

How a job ends concerns nobody but the sink. With other outcomes the same steps can be made, and they
lead through the same pools; the sink is told of each job that failed or panicked, once, before the
job stops being in flight.

* `Step.Recast`: two steps that differ in the outcome of a job at most.
* `Play.Alike`: two plays that differ in outcomes and in what workers reported at most.
* `Alike.next`: with another outcome a step goes the same way; `Alike.run`: so does a run.
* `Play.exists_recast`: the jobs of a run may as well have had the outcomes of any work function.
* `Play.Reported`: what the sink was told, and when; `Play.reported`.
* `Play.Isolated`: both together.
-/

namespace BatchPool

namespace Pool

variable {J : Type}

/-- The same step, but for the outcome of the job that ends by it. -/
inductive Step.Recast : Step J → Step J → Prop where
  | refl (step : Step J) : Recast step step
  | conclude (i : Nat) (outcome other : Outcome) (panics : Bool) :
    Recast (.conclude i outcome panics) (.conclude i other panics)

/-- The step with the outcome that the work function has for the job that ends by it. -/
def Step.recast (work : Ticket J → Outcome) (p : Pool J) : Step J → Step J
  | .conclude i outcome panics => .conclude i (((p.executing? i).map work).getD outcome) panics
  | step => step

/-- The outcome of the job that ends by the step. -/
def Step.outcome? : Step J → Option Outcome
  | .conclude _ outcome _ => some outcome
  | _ => none

/-- The event, whatever the outcome of the job that ends. What a worker reports is left out. -/
def Event.unjudged? : Event J → Option (Event J)
  | .ended i t _ => some (.ended i t .done)
  | .reported (.worker _) _ => none
  | event => some event

/-- The answer to a call that enqueues a job: it entered the queue, the queue was closed, or it was
full. -/
def Event.answer? : Event J → Option (Event J)
  | .accepted caller t => some (.accepted caller t)
  | .rejected caller job => some (.rejected caller job)
  | .overflowed caller job => some (.overflowed caller job)
  | _ => none

/-- A job that ended at a worker, with its outcome. -/
structure Ending (J : Type) where
  worker : Nat
  ticket : Ticket J
  outcome : Outcome

/-- What the sink is to be told about a job that ended: its worker says that it failed or that it
panicked, and says nothing about a job that was done. -/
def Ending.report? (x : Ending J) : Option (Thread × Report) :=
  match x.outcome with
  | .done => none
  | .failed failure => some (.worker x.worker, .failed x.worker failure)
  | .panicked text => some (.worker x.worker, .panicked x.worker text)

/-- This is what its worker tells the sink. -/
theorem Ending.report?_eq (x : Ending J) :
    x.report? = (x.outcome.report? x.worker).map fun report => (.worker x.worker, report) := by
  obtain ⟨i, t, outcome⟩ := x
  cases outcome <;> rfl

/-- The text of this. A payload that is no text has a text of its own. -/
def Ending.text? (x : Ending J) : Option String :=
  match x.outcome with
  | .done => none
  | .failed failure =>
    some ("worker " ++ toString x.worker ++ ": job failed: " ++ ": ".intercalate failure.chain)
  | .panicked text =>
    some ("worker " ++ toString x.worker ++ ": job panicked: " ++
      text.getD "unknown panic payload")

theorem Ending.text?_eq (x : Ending J) : x.text? = x.report?.map (·.2.message) := by
  obtain ⟨i, t, outcome⟩ := x
  cases outcome with
  | done | failed => rfl
  | panicked text => cases text <;> rfl

/-- The job that ended. -/
def Event.ending? : Event J → Option (Ending J)
  | .ended i t outcome => some { worker := i, ticket := t, outcome := outcome }
  | _ => none

namespace Play

/-- The answers to the calls that enqueue a job. -/
def answers (s : Play J) : List (Event J) := s.events Event.answer?

/-- The jobs that ended, with their outcomes. -/
def endings (s : Play J) : List (Ending J) := s.events Event.ending?

/-- Two plays differ in the outcomes of jobs and in what workers reported at most. -/
structure Alike (s t : Play J) : Prop where
  /-- The pools are the same: the queue, the turn, the slots, the workers, the calls, and the number of
  jobs in flight. -/
  pool : t.pool = s.pool
  /-- The same happened, but for the outcomes and for the reports of workers. -/
  history : t.events Event.unjudged? = s.events Event.unjudged?
  /-- The work function was started on the same jobs by the same workers, in the same order. -/
  began : t.began = s.began
  /-- It has ended on the same ones. -/
  ended : t.ended = s.ended
  /-- The calls that enqueue jobs had the same answers. -/
  answers : t.answers = s.answers

variable {p q : Pool J} {steps steps' : List (Step J)} {step step' : Step J} {s s' t : Play J}
  {es : List (Event J)} {work : Ticket J → Outcome}

/-! ## Other outcomes -/

/-- What does not depend on outcomes and on reports of workers is the same in both plays. -/
theorem events_eq_of_unjudged {β : Type} {f : Event J → Option β}
    (blind : ∀ e, f e = e.unjudged?.bind f)
    (history : t.events Event.unjudged? = s.events Event.unjudged?) : t.events f = s.events f :=
  events_eq_of_view blind history

theorem Alike.of_history (pool : t.pool = s.pool)
    (history : t.events Event.unjudged? = s.events Event.unjudged?) : s.Alike t where
  pool := pool
  history := history
  began := events_eq_of_unjudged (fun e => by
    cases e with
    | reported thread => cases thread <;> rfl
    | _ => rfl) history
  ended := events_eq_of_unjudged (fun e => by
    cases e with
    | reported thread => cases thread <;> rfl
    | _ => rfl) history
  answers := events_eq_of_unjudged (fun e => by
    cases e with
    | reported thread => cases thread <;> rfl
    | _ => rfl) history

/-- The end of a work function without a fatal report, whatever its outcome. -/
theorem step?_conclude {i : Nat} {w : Worker J} {u : Ticket J} (outcome : Outcome)
    (here : p.workers[i]? = some w) (executing : w.phase = .executing u)
    (returned : p.busy (.worker i) = false) :
    p.step? (.conclude i outcome false) =
      some ({ p with workers := p.workers.set i { w with phase := .settling u } },
        .ended i u outcome :: (outcome.report? i).toList.map (.reported (.worker i))) := by
  obtain ⟨phase, ready, slot⟩ := w
  cases executing
  cases report : outcome.report? i <;>
    simp [Pool.step?, Pool.conclude, here, returned, report, setWorker]

/-- **With another outcome a step leads to the same pool**, and the same happens but for the
outcome and the report. -/
theorem exists_step?_recast (recast : step.Recast step') (calm : step.panics = false)
    (h : p.step? step = some (q, es)) :
    ∃ es', p.step? step' = some (q, es') ∧
      es'.filterMap Event.unjudged? = es.filterMap Event.unjudged? := by
  cases recast with
  | refl => exact ⟨es, h, rfl⟩
  | conclude i outcome other panics =>
    cases calm
    cases Moves.of_step? h with
    | conclude here executing returned | concludeReported here executing returned =>
      refine ⟨_, step?_conclude other here executing returned, ?_⟩
      cases other.report? i <;> rfl

theorem Alike.next (alike : s.Alike t) (recast : step.Recast step') (calm : step.panics = false)
    (h : s.step? step = some s') : ∃ t', t.step? step' = some t' ∧ s'.Alike t' := by
  unfold step? at h
  split at h
  · next q es hq =>
    cases h
    obtain ⟨es', hstep, same⟩ := exists_step?_recast recast calm hq
    refine ⟨{ t with pool := q }.record es', by rw [step?, alike.pool, hstep], ?_⟩
    refine .of_history rfl ?_
    rw [events_next, events_next, alike.history, same]
  · cases h

/-- **With other outcomes a run goes the same way.** -/
theorem Alike.run (alike : s.Alike t) (recast : List.Forall₂ Step.Recast steps steps')
    (calm : ∀ step ∈ steps, step.panics = false) (h : s.run? steps = some s') :
    ∃ t', t.run? steps' = some t' ∧ s'.Alike t' := by
  induction recast generalizing s t with
  | nil =>
    cases h
    exact ⟨t, rfl, alike⟩
  | cons first _ ih =>
    simp only [run?] at h
    split at h
    · next u hu =>
      obtain ⟨v, hv, both⟩ := alike.next first (calm _ List.mem_cons_self) hu
      obtain ⟨t', ht, alike⟩ := ih both (fun step hmem => calm step (List.mem_cons_of_mem _ hmem)) h
      exact ⟨t', by rw [run?, hv]; exact ht, alike⟩
    · cases h

theorem recast_recast (work : Ticket J → Outcome) (p : Pool J) (step : Step J) :
    step.Recast (step.recast work p) := by
  cases step with
  | conclude i outcome panics => exact .conclude i outcome _ panics
  | _ => exact .refl _

/-- A step with the outcome of the work function leaves a play in which all outcomes are its own. -/
theorem Follows.next (follows : t.Follows work) (h : t.step? (step.recast work t.pool) = some s') :
    s'.Follows work := by
  obtain ⟨q, es, hm, rfl⟩ := moves_of_step? h
  have both := hm.conclusion_cases
  intro x hx
  rw [conclusions, events_next, List.mem_append] at hx
  obtain before | now := hx
  · exact follows x before
  · obtain none | ⟨i, u, outcome, panics, hstep, executing, one⟩ := both
    · rw [none] at now
      cases now
    · rw [one, List.mem_singleton] at now
      subst now
      cases step <;> cases hstep
      simp [executing]

/-- **The jobs of a run may as well have the outcomes of any work function.** -/
theorem Alike.exists_recast (work : Ticket J → Outcome) (alike : s.Alike t) (follows : t.Follows work)
    (calm : ∀ step ∈ steps, step.panics = false) (h : s.run? steps = some s') :
    ∃ steps' t', List.Forall₂ Step.Recast steps steps' ∧ t.run? steps' = some t' ∧
      t'.Follows work := by
  induction steps generalizing s t with
  | nil => exact ⟨[], t, .nil, rfl, follows⟩
  | cons step rest ih =>
    simp only [run?] at h
    split at h
    · next u hu =>
      have first := recast_recast work t.pool step
      obtain ⟨v, hv, both⟩ := alike.next first (calm _ List.mem_cons_self) hu
      obtain ⟨steps', t', more, ht, all⟩ := ih both (follows.next hv)
        (fun step hmem => calm step (List.mem_cons_of_mem _ hmem)) h
      exact ⟨_, t', .cons first more, by rw [run?, hv]; exact ht, all⟩
    · cases h

/-! ## What the sink is told -/

theorem endings_map (s : Play J) : s.endings.map (fun x => (x.worker, x.ticket)) = s.ended := by
  rw [endings, events, List.map_filterMap]
  refine List.filterMap_congr fun e _ => ?_
  cases e <;> rfl

theorem mem_endings_of_ended {i : Nat} {u : Ticket J} (h : (i, u) ∈ s.ended) :
    ∃ x ∈ s.endings, x.worker = i ∧ x.ticket = u := by
  rw [← endings_map] at h
  obtain ⟨x, hx, pair⟩ := List.mem_map.1 h
  exact ⟨x, hx, congrArg Prod.fst pair, congrArg Prod.snd pair⟩

/-- The outcomes of the jobs that ended are those of the steps by which they ended. -/
theorem endings_outcome (hs : Play.run? { pool := p } steps = some s) :
    s.endings.map (·.outcome) = steps.filterMap Step.outcome? := by
  refine run_induction
    (motive := fun steps s => s.endings.map (·.outcome) = steps.filterMap Step.outcome?) rfl ?_ hs
  intro steps s step q es _ ih hm
  rw [endings, events_next, List.map_append, List.filterMap_append, ← ih, endings]
  congr 1
  cases hm with
  | _ => simp [List.filterMap_cons, Event.ending?, Step.outcome?, failStart]

/-- **The reports are those of the jobs that ended**, in this order. -/
theorem reports_eq (hp : p.Fresh) (hs : Play.run? { pool := p } steps = some s)
    (calm : ∀ step ∈ steps, step.panics = false) :
    s.reports = s.endings.filterMap Ending.report? := by
  refine run_induction
    (motive := fun steps s => (∀ step ∈ steps, step.panics = false) →
      s.reports = s.endings.filterMap Ending.report?) (fun _ => rfl) ?_ hs calm
  intro steps s step q es hs ih hm calm
  simp only [List.mem_append, List.mem_singleton] at calm
  have before := fun step h => calm step (.inl h)
  have whole := (whole hp hs before).1
  rw [reports, endings, events_next, events_next, List.filterMap_append, ← endings, ← ih before,
    ← reports]
  congr 1
  cases hm with
  | discard loop | discardFatal loop => exact absurd loop (whole.loop _).1
  | conclude _ _ _ report | concludeReported _ _ _ report | concludeFatal _ _ _ report =>
    simp [Event.ending?, Ending.report?_eq, report]
  | _ => simp [List.filterMap_cons, Event.ending?, failStart]

theorem ended_nodup (hp : p.Fresh) (hs : Play.run? { pool := p } steps = some s) :
    (s.ended.map (·.2)).Nodup := by
  have le : ((s.ended.map (·.2) : List _) : Multiset (Ticket J)) ≤ (s.began.map (·.2) : List _) := by
    rw [← Multiset.map_coe, ← Multiset.map_coe, ← executing_add hp hs, Multiset.map_add]
    exact Multiset.le_add_left _ _
  have accepted := Multiset.coe_nodup.2 (accepted_nodup hp hs)
  exact Multiset.coe_nodup.1 (Multiset.nodup_of_le (le.trans (began_le hp hs)) accepted)

/-- Each worker ends its jobs in their order. -/
theorem ended_ordered (hp : p.Fresh) (hs : Play.run? { pool := p } steps = some s) :
    s.ended.Pairwise fun x y => x.1 = y.1 → x.2.number < y.2.number := by
  refine run_induction
    (motive := fun _ s => s.ended.Pairwise fun x y => x.1 = y.1 → x.2.number < y.2.number) .nil ?_ hs
  intro steps s step q es hs ih hm
  have next : ({ s with pool := q }.record es).ended = s.ended ++ es.filterMap Event.ended? :=
    events_next s q es Event.ended?
  rw [next]
  cases hm with
  | @conclude i w u _ _ here executing | @concludeReported i w u _ _ here executing
  | @concludeFatal i w u _ _ here executing =>
    rw [List.pairwise_append]
    refine ⟨ih, List.pairwise_singleton _ _, fun x hx y hy mine => ?_⟩
    cases List.mem_singleton.1 hy
    have at_work : (i, u) ∈ s.pool.executing :=
      mem_atWorkers.2 ⟨i, w, here, by simp [executing]⟩
    have began : (i, u) ∈ s.began := executing_subset hp hs at_work
    have held := List.mem_append_left s.pool.settling (List.mem_append_right s.pool.slots at_work)
    refine number_lt_of_held hp hs (began_subset hp hs began) held
      (handed_subset s (began_subset hp hs (ended_subset hp hs hx))) mine ?_
    -- It is not the same job, which was started on only once.
    rintro rfl
    have once : s.began.Nodup :=
      (Multiset.coe_nodup.1 (Multiset.nodup_of_le (began_le hp hs)
        (Multiset.coe_nodup.2 (accepted_nodup hp hs)))).of_map
    rw [← Multiset.coe_nodup, ← executing_add hp hs] at once
    exact Multiset.disjoint_left.1 (Multiset.nodup_add.1 once).2.2 at_work hx
  | _ => simpa [List.filterMap_cons, Event.ended?, failStart] using ih

/-- A job that stops being in flight without a fatal report has ended at a worker. -/
theorem ended_of_completed (hp : p.Fresh) (hs : Play.run? { pool := p } steps = some s)
    (calm : ∀ step ∈ steps, step.panics = false) (hm : Moves s.pool step q es) {thread : Thread}
    {u : Ticket J} (completed : .completed thread u ∈ es) :
    step.completes = true ∧ ∃ i, thread = .worker i ∧ (i, u) ∈ s.ended := by
  have whole := (whole hp hs calm).1
  cases hm with
  | settle loop => exact absurd loop (whole.loop _).2.1
  | @complete i w t here settling =>
    simp only [List.mem_singleton, Event.completed.injEq] at completed
    obtain ⟨rfl, rfl⟩ := completed
    have with_worker : (i, u) ∈ s.pool.settling := mem_atWorkers.2 ⟨i, w, here, by simp [settling]⟩
    exact ⟨rfl, i, rfl, settling_subset hp hs with_worker⟩
  | close | shutDown | join => split at completed <;> simp at completed
  | _ => simp [failStart] at completed

/-- What the sink of a pool of `n` workers was told. The given steps have led to the play. -/
structure Reported (n : Nat) (steps : List (Step J)) (s : Play J) : Prop where
  /-- The jobs are numbered in the order in which they entered the queue. -/
  numbered : s.accepted.map (·.number) = List.range s.accepted.length
  /-- Only such jobs end. -/
  accepted : ∀ x ∈ s.endings, x.ticket ∈ s.accepted
  /-- A job ends with the outcome of the step by which it ends. -/
  outcomes : s.endings.map (·.outcome) = steps.filterMap Step.outcome?
  /-- No job ends twice. -/
  once : (s.endings.map (·.ticket)).Nodup
  /-- The sink got one report for each job that failed or panicked, in the order in which they ended,
  and no other. -/
  reports : s.reports = s.endings.filterMap Ending.report?
  /-- A report says which worker made it, what happened to the job, and why. -/
  texts : s.reports.map (·.2.message) = s.endings.filterMap Ending.text?
  /-- The report of a job comes from the worker whose turn it was by its number. -/
  turn : ∀ x ∈ s.endings, x.worker = x.ticket.number % n
  /-- The jobs of one worker end in their order. -/
  ordered : s.endings.Pairwise fun x y => x.worker = y.worker → x.ticket.number < y.ticket.number
  /-- When the number of jobs in flight goes down for a job, this has ended, and the sink was told. -/
  before : ∀ step q es thread t, s.pool.step? step = some (q, es) → .completed thread t ∈ es →
    q.inFlight + 1 = s.pool.inFlight ∧ ∃ x ∈ s.endings, x.ticket = t ∧ thread = .worker x.worker ∧
      ∀ report ∈ x.report?, report ∈ s.reports
  /-- When a call returns that has waited until no job is in flight, all jobs have ended that entered
  the queue, and the sink was told. -/
  idle : ∀ caller t, s.step? (.idle caller) = some t → (s.endings.map (·.ticket)).Perm s.accepted ∧
    ∀ x ∈ s.endings, ∀ report ∈ x.report?, report ∈ s.reports

/-- **The sink is told of each job that failed or panicked, before the job stops being in flight.** -/
theorem reported (hp : p.Fresh) (hs : Play.run? { pool := p } steps = some s)
    (calm : ∀ step ∈ steps, step.panics = false) : s.Reported p.workerCount steps := by
  have reports := reports_eq hp hs calm
  have told : ∀ x ∈ s.endings, ∀ report ∈ x.report?, report ∈ s.reports := by
    intro x hx report hr
    rw [reports]
    exact List.mem_filterMap.2 ⟨x, hx, hr⟩
  have tickets : s.endings.map (·.ticket) = s.ended.map (·.2) := by
    rw [← endings_map, List.map_map]
    rfl
  have assigned : ∀ x ∈ s.endings, (x.worker, x.ticket) ∈ s.assigned := by
    intro x hx
    have ended : (x.worker, x.ticket) ∈ s.ended := by
      rw [← endings_map]
      exact List.mem_map_of_mem hx
    exact handed_subset s (began_subset hp hs (ended_subset hp hs ended))
  exact {
    numbered := accepted_numbered hp hs
    accepted := fun x hx =>
      ((mem_assigned_iff hp hs).1 (List.mem_map_of_mem (assigned x hx))).1
    outcomes := endings_outcome hs
    once := tickets ▸ ended_nodup hp hs
    reports := reports
    texts := by
      rw [reports, List.map_filterMap]
      exact List.filterMap_congr fun x _ => x.text?_eq.symm
    turn := fun x hx => assigned_turn hp hs _ (assigned x hx)
    ordered := by
      have ordered := ended_ordered hp hs
      rwa [← endings_map, List.pairwise_map] at ordered
    before := fun step q es thread t hstep completed => by
      have hm := Moves.of_step? hstep
      obtain ⟨lowers, i, rfl, ended⟩ := ended_of_completed hp hs calm hm completed
      obtain ⟨x, hx, rfl, rfl⟩ := mem_endings_of_ended ended
      have exact := inFlight_eq hp hs
      have next := (hp.sound.of_run hs).inFlight_next hm (waiting_callers hp hs) exact
      exact ⟨next.2 lowers, x, hx, rfl, rfl, told x hx⟩
    idle := fun caller t ht => by
      obtain ⟨q, es, hm, -⟩ := moves_of_step? ht
      cases hm with
      | idle _ none =>
        rw [inFlight_eq hp hs] at none
        rw [tickets]
        exact ⟨(all_done hp hs calm (by omega)).2.2, told⟩ }

/-! ## Both together -/

/-- How jobs end does not matter to the pool. The given steps can be made from it without a fatal
report. -/
structure Isolated (p : Pool J) (steps : List (Step J)) : Prop where
  /-- With other outcomes they can be made as well, and they lead through the same pools, with the same
  jobs started and ended and the same answers. The sink is told what failed or panicked then. -/
  recast : ∀ steps', List.Forall₂ Step.Recast steps steps' → ∀ n, ∃ s t,
    Play.run? { pool := p } (steps.take n) = some s ∧
      Play.run? { pool := p } (steps'.take n) = some t ∧ s.Alike t ∧
        t.Reported p.workerCount (steps'.take n)
  /-- The outcomes may be those of any work function. -/
  any : ∀ work : Ticket J → Outcome, ∃ steps' t, List.Forall₂ Step.Recast steps steps' ∧
    Play.run? { pool := p } steps' = some t ∧ t.Follows work

/-- Steps that differ in outcomes kill no thread either. -/
theorem calm_of_recast (recast : List.Forall₂ Step.Recast steps steps')
    (calm : ∀ step ∈ steps, step.panics = false) : ∀ step ∈ steps', step.panics = false := by
  induction recast with
  | nil => exact calm
  | cons first _ ih =>
    obtain ⟨head, rest⟩ := List.forall_mem_cons.1 calm
    refine List.forall_mem_cons.2 ⟨?_, ih rest⟩
    cases first <;> exact head

/-- **How jobs end does not matter to the pool, and the sink is told what failed or panicked.** -/
theorem isolated {c : PoolConfig} {processors : Nat} (hp : create c processors = .ok p)
    (hs : Play.run? { pool := p } steps = some s) (calm : ∀ step ∈ steps, step.panics = false) :
    Isolated p steps := by
  have fresh := Fresh.of_create hp
  have self : ({ pool := p } : Play J).Alike { pool := p } := .of_history rfl rfl
  refine ⟨fun steps' recast n => ?_, fun work =>
    self.exists_recast work (by intro x hx; cases hx) calm hs⟩
  have quiet : ∀ step ∈ steps.take n, step.panics = false :=
    fun step h => calm step (List.mem_of_mem_take h)
  have parts := List.forall₂_take n recast
  -- A part of a run is a run.
  obtain ⟨u, hu, -⟩ : ∃ u, Play.run? { pool := p } (steps.take n) = some u ∧
      u.run? (steps.drop n) = some s := by
    rw [← List.take_append_drop n steps, run?_append] at hs
    exact Option.bind_eq_some_iff.1 hs
  obtain ⟨t, ht, alike⟩ := self.run parts quiet hu
  exact ⟨u, t, hu, ht, alike, reported fresh ht (calm_of_recast parts quiet)⟩

/-- A run of a pool of two workers: job 10 fails, job 20 panics, job 30 is done, and then no job is in
flight. -/
def unluckyRun : List (Step Nat) :=
  [.start (.client 0), .spawn false, .spawn false, .spawn false, .announce 0, .announce 1,
    .enqueue (.client 0) 10, .insert (.client 0), .take, .claim, .hand, .receive 0,
    .offer (.client 1) 20, .take, .claim, .hand, .receive 1, .conclude 1 (.panicked none) false,
    .enqueue (.worker 0) 30, .insert (.worker 0), .take, .complete 1,
    .conclude 0 (.failed (.stated "a")) false, .complete 0, .announce 0, .claim, .hand, .receive 0,
    .conclude 0 .done false, .complete 0, .idle (.client 1)]

theorem isolated_unluckyRun :
    ∃ s, Play.run? { pool := mixedPool } unluckyRun = some s ∧
      s.reports = [(.worker 1, .panicked 1 none), (.worker 0, .failed 0 (.stated "a"))] ∧
      s.reports.map (·.2.message) =
        ["worker 1: job panicked: unknown panic payload", "worker 0: job failed: a"] ∧
      Isolated mixedPool unluckyRun :=
  have made : create { queueCapacity := 1, workerCount := some 2, threadName := "a" } 1 =
    .ok mixedPool := rfl
  ⟨_, rfl, rfl, by decide +kernel,
    isolated made (show Play.run? _ unluckyRun = some _ from rfl) (by decide)⟩

end Play

end Pool

end BatchPool
