import BatchPool.Proofs.Pool.InFlight
import BatchPool.Proofs.Pool.RoundRobin

/-!
# Refused calls leave no trace

A call that enqueues a job and is refused changes nothing in the end: without its steps the run is
still one, and it leads to the same pool. On its way a call that waits for room is counted as in flight,
so that the pools between differ in this number and in the calls that wait, and in nothing else.

* `Waiting.doomed`: a call that waits and will return refused; `Pool.doomed`: the first step is one of
  such a call.
* `Pool.without`: a pool without such calls, and `Pool.erase`: a list of steps without theirs.
* `Moves.without_of_doomed`: the steps of these calls change nothing else; `Moves.without`: the other
  steps go the same way without these calls.
* `Play.SameBut`: two plays that differ in refused calls at most; `Play.exists_erased`.
* `Play.Traceless`: what follows for every run.
-/

namespace BatchPool

namespace Pool

variable {J : Type}

/-! ## The calls that are erased -/

/-- Whether a call of the thread that waits for room is refused, if it returns by the step. -/
def Step.refuses? (caller : Thread) : Step J → Option Bool
  | .insert c => if c = caller then some false else none
  | .rollback c => if c = caller then some true else none
  | _ => none

/-- Of the steps by which a call of the thread returns that waits for room, the first one refuses it. -/
def returnsRefused (caller : Thread) (steps : List (Step J)) : Bool :=
  (steps.findSome? (Step.refuses? caller)).getD false

/-- The call is a chosen one, and returns refused in the given steps. -/
def Waiting.doomed (chosen : Thread → J → Bool) (steps : List (Step J)) (c : Waiting J) : Bool :=
  chosen c.caller c.job && returnsRefused c.caller steps

/-- The first of the steps is one of a chosen call that returns refused in them. -/
def doomed (chosen : Thread → J → Bool) (p : Pool J) : List (Step J) → Bool
  | [] => false
  | .enqueue caller job :: rest =>
    ({ caller := caller, job := job } : Waiting J).doomed chosen rest
  | .offer caller job :: _ => chosen caller job && (p.closed || p.isFull)
  | .refuse caller :: rest => (p.waitingOf? caller).any (·.doomed chosen rest)
  | .rollback caller :: _ => (p.waitingOf? caller).any fun c => chosen c.caller c.job
  | _ => false

/-- The steps without those of the chosen calls that return refused in them. -/
def erase (chosen : Thread → J → Bool) (p : Pool J) : List (Step J) → List (Step J)
  | [] => []
  | step :: rest =>
    match p.step? step with
    | some (q, _) =>
      if p.doomed chosen (step :: rest) then q.erase chosen rest else step :: q.erase chosen rest
    | none => step :: rest

/-- The pool without some of the calls that wait for room. -/
def without (gone : Waiting J → Bool) (p : Pool J) : Pool J :=
  { p with
    inFlight := p.inFlight - p.waiting.countP gone
    waiting := p.waiting.filter fun c => !gone c }

/-- The event, unless it belongs to a call that was refused. -/
def Event.lasting? : Event J → Option (Event J)
  | .rejected _ _ | .overflowed _ _ | .logged _ .rejected => none
  | event => some event

/-- The call that was refused. -/
def Event.refusal? : Event J → Option (Thread × J)
  | .rejected caller job | .overflowed caller job => some (caller, job)
  | _ => none

/-- The call that waited until no job is in flight. -/
def Event.idle? : Event J → Option Thread
  | .idle caller => some caller
  | _ => none

/-- The calls that waited until no job is in flight, as they returned. -/
def Play.idles (s : Play J) : List Thread := s.events Event.idle?

/-- The step belongs to a call that enqueues a job. -/
def Step.enqueueing : Step J → Bool
  | .enqueue _ _ | .offer _ _ | .insert _ | .refuse _ | .rollback _ => true
  | _ => false

variable {p q : Pool J} {step : Step J} {events : List (Event J)} {rest : List (Step J)}
  {chosen : Thread → J → Bool} {caller : Thread} {c : Waiting J} {gone : Waiting J → Bool}

/-! ## Pools without some calls -/

theorem without_of_nil (none : p.waiting = []) : p.without gone = p := by
  cases p
  cases none
  rfl

theorem busy_without (free : p.busy caller = false) : (p.without gone).busy caller = false := by
  simp only [busy, without, Bool.or_eq_false_iff] at free ⊢
  refine ⟨⟨?_, free.1.2⟩, free.2⟩
  exact List.any_eq_false.2 fun d hd => List.any_eq_false.1 free.1.1 d (List.mem_of_mem_filter hd)

/-- What a thread can do, it can do without some calls. -/
theorem mayCall_without (free : p.mayCall caller = true) : (p.without gone).mayCall caller = true := by
  simp only [mayCall, Bool.and_eq_true, Bool.not_eq_true'] at free ⊢
  exact ⟨⟨free.1.1, busy_without free.1.2⟩, free.2⟩

/-- A call that waits until no job is in flight returns without some other calls, if it does with
them. -/
theorem isSome_idle_without (possible : (p.step? (.idle caller)).isSome) :
    ((p.without gone).step? (.idle caller)).isSome := by
  obtain ⟨⟨q, es⟩, hstep⟩ := Option.isSome_iff_exists.1 possible
  cases Moves.of_step? hstep with
  | idle free none =>
    have next := Moves.idle (p := p.without gone) (mayCall_without free) (by simp [without, none])
    rw [next.step?_eq]
    rfl

/-- A call that is still there is found. -/
theorem waitingOf?_without (call : p.waitingOf? caller = some c) (stays : gone c = false) :
    (p.without gone).waitingOf? caller = some c := by
  unfold waitingOf? at call ⊢
  obtain ⟨mine, before, behind, all, none⟩ := List.find?_eq_some_iff_append.1 call
  refine List.find?_eq_some_iff_append.2
    ⟨mine, before.filter (fun d => !gone d), behind.filter (fun d => !gone d), ?_, fun d hd => ?_⟩
  · simp [without, all, stays]
  · exact none d (List.mem_of_mem_filter hd)

/-- The other calls of a pool in which no thread waits twice. -/
theorem caller_ne_or_eq (callers : (p.waiting.map (·.caller)).Nodup)
    (call : p.waitingOf? caller = some c) {d : Waiting J} (hd : d ∈ p.waiting) :
    d.caller ≠ caller ∨ d = c := by
  by_cases mine : d.caller = caller
  · have found : p.waitingOf? d.caller = some d := find?_of_mem Waiting.caller callers hd
    rw [mine, call] at found
    exact .inr (Option.some.inj found).symm
  · exact .inl mine

/-! ## Steps -/

/-- A call that has been refused is doomed if it was chosen. -/
theorem Waiting.doomed_rollback (chosen : Thread → J → Bool) (rest : List (Step J)) (c : Waiting J) :
    c.doomed chosen (.rollback c.caller :: rest) = chosen c.caller c.job := by
  simp [Waiting.doomed, returnsRefused, Step.refuses?]

/-- A call whose job enters the queue is not doomed. -/
theorem Waiting.doomed_insert (chosen : Thread → J → Bool) (rest : List (Step J)) (c : Waiting J) :
    c.doomed chosen (.insert c.caller :: rest) = false := by
  simp [Waiting.doomed, returnsRefused, Step.refuses?]

/-- Whether a call is doomed does not depend on the steps of the others. -/
theorem Waiting.doomed_of_ne (other : c.caller ≠ caller) :
    c.doomed chosen (.rollback caller :: rest) = c.doomed chosen rest ∧
      c.doomed chosen (.insert caller :: rest) = c.doomed chosen rest := by
  simp [Waiting.doomed, returnsRefused, Step.refuses?, Ne.symm other]

/-- The calls that are gone among those that are left after one has returned. -/
theorem countP_endWaiting (callers : (p.waiting.map (·.caller)).Nodup)
    (call : p.waitingOf? caller = some c) {gone' : Waiting J → Bool}
    (same : ∀ d : Waiting J, d.caller ≠ caller → gone' d = gone d) :
    p.waiting.countP gone' =
      (gone' c).toNat + (p.waiting.filter fun d => d.caller ≠ caller).countP gone := by
  rw [(perm_cons_filter callers call).countP_eq gone', List.countP_cons]
  have others : (p.waiting.filter fun d => d.caller ≠ caller).countP gone' =
      (p.waiting.filter fun d => d.caller ≠ caller).countP gone :=
    List.countP_congr fun d hd => by rw [same d (by simpa using (List.mem_filter.1 hd).2)]
  rw [others, Nat.add_comm]
  cases gone' c <;> rfl

/-- The calls that are left after one has returned, without those that are gone. -/
theorem filter_endWaiting {gone' : Waiting J → Bool}
    (same : ∀ d : Waiting J, d.caller ≠ caller → gone' d = gone d) :
    (p.waiting.filter fun d => d.caller ≠ caller).filter (fun d => !gone d) =
      (p.waiting.filter fun d => !gone' d).filter fun d => d.caller ≠ caller := by
  rw [List.filter_filter, List.filter_filter]
  refine List.filter_congr fun d _ => ?_
  by_cases mine : d.caller = caller
  · simp [mine]
  · simp [mine, same d mine]

/-- A call that stays returns from the others that stay. -/
theorem without_endWaiting (callers : (p.waiting.map (·.caller)).Nodup)
    (call : p.waitingOf? caller = some c) {gone' : Waiting J → Bool} (stays : gone' c = false)
    (same : ∀ d : Waiting J, d.caller ≠ caller → gone' d = gone d) :
    (p.endWaiting caller).without gone = (p.without gone').endWaiting caller := by
  have count := countP_endWaiting callers call same
  rw [stays, Bool.toNat_false, Nat.zero_add] at count
  simp only [without, endWaiting, count, filter_endWaiting same]

theorem without_raise (few : p.waiting.countP gone ≤ p.inFlight) :
    ({ p with inFlight := p.inFlight + 1 } : Pool J).without gone =
      { p.without gone with inFlight := (p.without gone).inFlight + 1 } := by
  simp only [without, Nat.sub_add_comm few]

theorem without_lower (p : Pool J) :
    ({ p with inFlight := p.inFlight - 1 } : Pool J).without gone =
      { p.without gone with inFlight := (p.without gone).inFlight - 1 } := by
  simp only [without, Nat.sub_right_comm]

theorem Waiting.doomed_refuse (d : Waiting J) :
    (d.refuse caller).doomed chosen rest = d.doomed chosen rest := by
  unfold Waiting.refuse
  split <;> rfl

/-- The calls that are doomed stay so when one is refused. -/
theorem without_refuse (p : Pool J) :
    ({ p with waiting := p.waiting.map (Waiting.refuse caller) } : Pool J).without
        (Waiting.doomed chosen rest) =
      { p.without (Waiting.doomed chosen rest) with
        waiting := (p.without (Waiting.doomed chosen rest)).waiting.map (Waiting.refuse caller) } := by
  have same : Waiting.doomed chosen rest ∘ Waiting.refuse caller = Waiting.doomed chosen rest :=
    funext fun d => d.doomed_refuse
  have kept : (fun d : Waiting J => !d.doomed chosen rest) ∘ Waiting.refuse caller =
      fun d => !d.doomed chosen rest :=
    funext fun d => congrArg not d.doomed_refuse
  simp only [without, List.countP_map, List.filter_map, same, kept]

/-- **The steps of a doomed call change nothing but this call.** -/
theorem Moves.without_of_doomed (hm : Moves p step q events)
    (callers : (p.waiting.map (·.caller)).Nodup) (doomed : p.doomed chosen (step :: rest) = true) :
    q.without (Waiting.doomed chosen rest) = p.without (Waiting.doomed chosen (step :: rest)) ∧
      events.filterMap Event.lasting? = [] := by
  cases hm with
  | @enqueue caller job =>
    have mine : ({ caller := caller, job := job } : Waiting J).doomed chosen rest = true := doomed
    have same : Waiting.doomed chosen (.enqueue caller job :: rest) = Waiting.doomed chosen rest := rfl
    refine ⟨?_, rfl⟩
    simp [without, mine, same]
  | @refuse caller c call =>
    have mine : c.doomed chosen rest = true := by simpa [Pool.doomed, call] using doomed
    refine ⟨(without_refuse p).trans ?_, rfl⟩
    -- The call that is refused is gone.
    have others : (p.without (Waiting.doomed chosen rest)).waiting.map (Waiting.refuse caller) =
        (p.without (Waiting.doomed chosen rest)).waiting := by
      refine (List.map_congr_left fun d hd => ?_).trans (List.map_id _)
      obtain ⟨hd, stays⟩ := List.mem_filter.1 hd
      obtain other | rfl := caller_ne_or_eq callers call hd
      · exact if_neg other
      · simp [mine] at stays
    rw [others]
    rfl
  | @rollback caller c call refused =>
    have mine : chosen c.caller c.job = true := by simpa [Pool.doomed, call] using doomed
    have own : c.caller = caller := by simpa using List.find?_some call
    have gone : c.doomed chosen (.rollback caller :: rest) = true := by
      rw [← own, Waiting.doomed_rollback, mine]
    have same : ∀ d : Waiting J, d.caller ≠ caller →
        d.doomed chosen (.rollback caller :: rest) = d.doomed chosen rest :=
      fun d other => (Waiting.doomed_of_ne other).1
    have count := countP_endWaiting callers call same
    have left : ((p.waiting.filter fun d => !d.doomed chosen (.rollback caller :: rest)).filter
        fun d => d.caller ≠ caller) =
        p.waiting.filter fun d => !d.doomed chosen (.rollback caller :: rest) := by
      refine List.filter_eq_self.2 fun d hd => ?_
      obtain ⟨hd, stays⟩ := List.mem_filter.1 hd
      obtain other | rfl := caller_ne_or_eq callers call hd
      · simpa using other
      · simp [gone] at stays
    refine ⟨?_, rfl⟩
    rw [gone, Bool.toNat_true] at count
    simp only [without, filter_endWaiting same, left, count, Nat.sub_sub]
  | offerClosed | offerFull => exact ⟨rfl, rfl⟩
  | offerTaken _ unclosed room => simp [Pool.doomed, unclosed, room] at doomed
  | _ => cases doomed

/-- A move to a pool is one to each pool that is equal to it. -/
theorem Moves.congr {r : Pool J} (hm : Moves p step q events) (same : r = q) :
    Moves p step r events :=
  same ▸ hm

/-- **Without the doomed calls the other steps go the same way.** -/
theorem Moves.without (hm : Moves p step q events) (callers : (p.waiting.map (·.caller)).Nodup)
    (counted : p.waiting.length ≤ p.inFlight) (kept : p.doomed chosen (step :: rest) = false) :
    Moves (p.without (Waiting.doomed chosen (step :: rest))) step
      (q.without (Waiting.doomed chosen rest)) events := by
  have few : p.waiting.countP (Waiting.doomed chosen rest) ≤ p.inFlight :=
    List.countP_le_length.trans counted
  cases hm with
  | @enqueue caller job free =>
    have stays : ({ caller := caller, job := job } : Waiting J).doomed chosen rest = false := kept
    have may : (p.without (Waiting.doomed chosen rest)).mayCall caller = true := mayCall_without free
    refine (Moves.enqueue may).congr ?_
    simp [Pool.without, stays, Nat.sub_add_comm few]
  | @insert caller c call fresh unclosed room =>
    have own : c.caller = caller := by simpa using List.find?_some call
    have stays : c.doomed chosen (.insert caller :: rest) = false := by
      rw [← own, Waiting.doomed_insert]
    have left := without_endWaiting callers call stays fun d other => (Waiting.doomed_of_ne other).2
    have next := Moves.insert (waitingOf?_without call stays) fresh unclosed room
    exact next.congr (congrArg (·.insert c.job) left)
  | @refuse caller c call fresh closed =>
    have stays : c.doomed chosen rest = false := by simpa [Pool.doomed, call] using kept
    have next := Moves.refuse (waitingOf?_without call stays) fresh closed
    exact next.congr (without_refuse p)
  | @rollback caller c call refused =>
    have own : c.caller = caller := by simpa using List.find?_some call
    have stays : c.doomed chosen (.rollback caller :: rest) = false := by
      rw [← own, Waiting.doomed_rollback]
      simpa [Pool.doomed, call] using kept
    have left := without_endWaiting callers call stays fun d other => (Waiting.doomed_of_ne other).1
    have next := Moves.rollback (waitingOf?_without call stays) refused
    exact next.congr ((without_lower (p.endWaiting caller)).trans (congrArg
      (fun r : Pool J => { r with inFlight := r.inFlight - 1 }) left))
  | offerClosed free closed => exact .offerClosed (mayCall_without free) closed
  | offerFull free unclosed full => exact .offerFull (mayCall_without free) unclosed full
  | @offerTaken caller job free unclosed room =>
    have may : (p.without (Waiting.doomed chosen rest)).mayCall caller = true := mayCall_without free
    exact (Moves.offerTaken may unclosed room).congr (congrArg (·.insert job) (without_raise few))
  | close free => exact .close (mayCall_without free)
  | startFirst free stopped => exact .startFirst (mayCall_without free) stopped
  | startAgain free taken => exact .startAgain (mayCall_without free) taken
  | spawnFails starting => exact .spawnFails starting
  | spawnWorker starting here => exact .spawnWorker starting here
  | spawnLoop starting last => exact .spawnLoop starting last
  | shutDown free => exact .shutDown (mayCall_without free)
  | retire call => exact .retire call
  | collect call unlocked => exact .collect call unlocked
  | join call exited => exact .join call exited
  | finish call => exact .finish call
  | idle free none => exact .idle (mayCall_without free) (by simp [Pool.without, none])
  | drop settled alone uncalled unjoined =>
    exact .drop settled alone (by simp [Pool.without, uncalled]) unjoined
  | take receiving queue => exact .take receiving queue
  | stopLoop receiving queue closed => exact .stopLoop receiving queue closed
  | claim holding turn ready => exact .claim holding turn ready
  | claimGone holding turn unready gone => exact .claimGone holding turn unready gone
  | hand handing turn present empty => exact .hand handing turn present empty
  | handGone handing turn gone => exact .handGone handing turn gone
  | discard discarding => exact .discard discarding
  | discardFatal discarding => exact .discardFatal discarding
  | settle settling =>
    have next := Moves.settle (p := p.without (Waiting.doomed chosen rest)) settling
    exact next.congr (congrArg nextTurn (without_lower p))
  | announce here announcing held unready => exact .announce here announcing held unready
  | announceStops here announcing unheld => exact .announceStops here announcing unheld
  | receive here listening slot => exact .receive here listening slot
  | receiveStops here listening slot unheld => exact .receiveStops here listening slot unheld
  | conclude here executing returned good =>
    exact .conclude here executing (busy_without returned) good
  | concludeReported here executing returned bad =>
    exact .concludeReported here executing (busy_without returned) bad
  | concludeFatal here executing returned bad =>
    exact .concludeFatal here executing (busy_without returned) bad
  | @complete i w t here settling =>
    have next := Moves.complete (p := p.without (Waiting.doomed chosen rest)) here settling
    exact next.congr (congrArg (·.setWorker i { w with phase := .announcing }) (without_lower p))

/-- The refused calls that were not chosen are refused by the steps that are kept. -/
theorem Moves.refusal_law (hm : Moves p step q events) (chosen : Thread → J → Bool)
    (rest : List (Step J)) :
    (events.filterMap Event.refusal?).filter (fun x => !chosen x.1 x.2) =
      if p.doomed chosen (step :: rest) then [] else events.filterMap Event.refusal? := by
  cases hm with
  | @rollback caller c call refused =>
    have own : c.caller = caller := by simpa using List.find?_some call
    subst own
    cases mine : chosen c.caller c.job <;>
      simp [List.filterMap_cons, Event.refusal?, doomed, call, mine]
  | @offerClosed caller job _ closed =>
    cases mine : chosen caller job <;>
      simp [List.filterMap_cons, Event.refusal?, doomed, closed, mine]
  | @offerFull caller job _ _ full =>
    cases mine : chosen caller job <;> simp [Event.refusal?, doomed, full, mine]
  | _ => simp [List.filterMap_cons, Event.refusal?, failStart]

/-! ## Runs -/

namespace Play

/-- Two plays differ in the chosen calls at most that return refused in the steps to come, or returned
so. -/
structure SameBut (chosen : Thread → J → Bool) (rest : List (Step J)) (s t : Play J) : Prop where
  pool : t.pool = s.pool.without (Waiting.doomed chosen rest)
  lasting : t.events Event.lasting? = s.events Event.lasting?
  refusals : t.events Event.refusal? = (s.events Event.refusal?).filter fun x => !chosen x.1 x.2

/-- A play does not have the chosen calls that were refused, and is the same in all else. -/
structure Spared (chosen : Thread → J → Bool) (s t : Play J) : Prop where
  /-- The pools are the same: the queue, the slots, whether it is closed, and the number of jobs in
  flight. -/
  pool : t.pool = s.pool
  /-- The same happened otherwise, in the same order. -/
  lasting : t.events Event.lasting? = s.events Event.lasting?
  /-- The same jobs entered the queue, in the same order. -/
  accepted : t.accepted = s.accepted
  /-- They were assigned to the same workers, which were started on the same ones and ended the same
  ones. -/
  assigned : t.assigned = s.assigned
  began : t.began = s.began
  ended : t.ended = s.ended
  /-- The sink was told the same. -/
  reports : t.reports = s.reports
  /-- The same calls returned that waited until no job is in flight. -/
  idles : t.idles = s.idles
  /-- The calls that were refused are those that were not chosen. -/
  refusals : t.events Event.refusal? = (s.events Event.refusal?).filter fun x => !chosen x.1 x.2

/-- Refused calls leave no trace in a run of the pool, whose queue has room for `capacity` jobs. -/
structure Traceless (capacity : Nat) (p : Pool J) (steps : List (Step J)) (s : Play J) : Prop where
  /-- Without the steps of refused calls the run is still one, and nothing is different behind it. -/
  erased : ∀ chosen, ∃ t, Play.run? { pool := p } (p.erase chosen steps) = some t ∧ s.Spared chosen t
  /-- On the way only the number of jobs in flight is different, by the calls that wait and will be
  refused. So a call that waits until no job is in flight returns there, if it does with these calls. -/
  along : ∀ chosen done rest u, steps = done ++ rest → Play.run? { pool := p } done = some u →
    ∃ kept t, p.erase chosen steps = kept ++ u.pool.erase chosen rest ∧
      Play.run? { pool := p } kept = some t ∧ u.SameBut chosen rest t ∧
      ∀ caller, (u.pool.step? (.idle caller)).isSome → (t.pool.step? (.idle caller)).isSome
  /-- Only steps of calls that enqueue a job are left out. -/
  only : ∀ chosen, (p.erase chosen steps).Sublist steps ∧
    (p.erase chosen steps).filter (fun step => !step.enqueueing) =
      steps.filter fun step => !step.enqueueing
  /-- An offer is refused exactly if the queue is closed, or has no room. -/
  offered : ∀ caller job q es, s.pool.step? (.offer caller job) = some (q, es) →
    ((caller, job) ∈ es.filterMap Event.refusal? ↔
      s.pool.closed = true ∨ s.pool.queue.length = capacity)

variable {s t : Play J} {done steps : List (Step J)}

/-- **Without the doomed calls a run goes the same way**, whatever steps are to come. -/
theorem exists_erased (hp : p.Fresh) (hs : Play.run? { pool := p } done = some s)
    (chosen : Thread → J → Bool) (rest : List (Step J)) :
    ∃ kept t, p.erase chosen (done ++ rest) = kept ++ s.pool.erase chosen rest ∧
      Play.run? { pool := p } kept = some t ∧ s.SameBut chosen rest t := by
  refine run_induction
    (motive := fun done s => ∀ rest, ∃ kept t,
      p.erase chosen (done ++ rest) = kept ++ s.pool.erase chosen rest ∧
        Play.run? { pool := p } kept = some t ∧ s.SameBut chosen rest t) ?_ ?_ hs rest
  · intro rest
    exact ⟨[], _, rfl, rfl, (without_of_nil hp.waiting).symm, rfl, rfl⟩
  · intro done s step q es hs ih hm rest
    obtain ⟨kept, t, erased, ht, same⟩ := ih (step :: rest)
    have callers := waiting_callers hp hs
    have counted : s.pool.waiting.length ≤ s.pool.inFlight := by
      rw [inFlight_eq hp hs]
      omega
    have possible := hm.step?_eq
    have refusals := hm.refusal_law chosen rest
    rw [Pool.erase, possible] at erased
    simp only [List.append_assoc, List.cons_append, List.nil_append, pool_next, erased]
    cases mine : s.pool.doomed chosen (step :: rest) with
    | true =>
      obtain ⟨pool, lasting⟩ := hm.without_of_doomed callers mine
      refine ⟨kept, t, by simp, ht, same.pool.trans pool.symm, ?_, ?_⟩
      · rw [events_next, lasting, List.append_nil, same.lasting]
      · rw [mine, if_pos rfl] at refusals
        rw [events_next, List.filter_append, refusals, List.append_nil, same.refusals]
    | false =>
      have next := hm.without callers counted mine
      let after : Play J := { t with pool := q.without (Waiting.doomed chosen rest) }.record es
      have hstep : t.step? step = some after := by rw [step?, same.pool, next.step?_eq]
      refine ⟨kept ++ [step], after, by simp, ?_, rfl, ?_, ?_⟩
      · rw [run?_append, ht]
        simp [run?, hstep]
      · rw [events_next, events_next, same.lasting]
      · rw [mine] at refusals
        rw [events_next, events_next, List.filter_append, refusals, same.refusals]
        rfl

/-- What is not about refused calls happened in the same way. -/
theorem events_eq_of_lasting {β : Type} {f : Event J → Option β}
    (rejected : ∀ caller job, f (.rejected caller job) = none)
    (overflowed : ∀ caller job, f (.overflowed caller job) = none)
    (logged : ∀ caller, f (.logged caller .rejected) = none)
    (same : t.events Event.lasting? = s.events Event.lasting?) : t.events f = s.events f := by
  have blind : ∀ e : Event J, f e = e.lasting?.bind f := by
    intro e
    cases he : e.lasting? with
    | some x =>
      unfold Event.lasting? at he
      split at he <;> cases he
      rfl
    | none =>
      unfold Event.lasting? at he
      split at he
      · exact rejected _ _
      · exact overflowed _ _
      · exact logged _
      · cases he
  exact events_eq_of_view blind same

/-- When no steps are to come, nothing else is different. -/
theorem Spared.of_sameBut (same : s.SameBut chosen [] t) : s.Spared chosen t where
  pool := by
    have none : Waiting.doomed chosen ([] : List (Step J)) = fun _ => false :=
      funext fun c => by simp [Waiting.doomed, returnsRefused]
    rw [same.pool, none]
    simp [Pool.without]
  lasting := same.lasting
  accepted := events_eq_of_lasting (fun _ _ => rfl) (fun _ _ => rfl) (fun _ => rfl) same.lasting
  assigned := events_eq_of_lasting (fun _ _ => rfl) (fun _ _ => rfl) (fun _ => rfl) same.lasting
  began := events_eq_of_lasting (fun _ _ => rfl) (fun _ _ => rfl) (fun _ => rfl) same.lasting
  ended := events_eq_of_lasting (fun _ _ => rfl) (fun _ _ => rfl) (fun _ => rfl) same.lasting
  reports := events_eq_of_lasting (fun _ _ => rfl) (fun _ _ => rfl) (fun _ => rfl) same.lasting
  idles := events_eq_of_lasting (fun _ _ => rfl) (fun _ _ => rfl) (fun _ => rfl) same.lasting
  refusals := same.refusals

end Play

/-! ## What is left out -/

theorem erase_sublist (chosen : Thread → J → Bool) (p : Pool J) (steps : List (Step J)) :
    (p.erase chosen steps).Sublist steps := by
  induction steps generalizing p with
  | nil => exact .slnil
  | cons step rest ih =>
    rw [erase]
    split
    · next q _ _ =>
      split
      · exact (ih q).cons step
      · exact (ih q).cons_cons step
    · exact .refl _

theorem enqueueing_of_doomed (h : p.doomed chosen (step :: rest) = true) : step.enqueueing = true := by
  cases step with
  | enqueue | offer | refuse | rollback => rfl
  | _ => cases h

theorem filter_erase (chosen : Thread → J → Bool) (p : Pool J) (steps : List (Step J)) :
    (p.erase chosen steps).filter (fun step => !step.enqueueing) =
      steps.filter fun step => !step.enqueueing := by
  induction steps generalizing p with
  | nil => rfl
  | cons step rest ih =>
    rw [erase]
    split
    · next q _ _ =>
      split
      · next doomed => simp [ih q, enqueueing_of_doomed doomed]
      · simp only [List.filter_cons, ih q]
    · rfl

namespace Play

/-- **Refused calls leave no trace.** -/
theorem traceless {c : PoolConfig} {processors : Nat} (hp : create c processors = .ok p)
    (hs : Play.run? { pool := p } steps = some s) : s.Traceless c.queueCapacity p steps := by
  have fresh := Fresh.of_create hp
  have room := capacity_of_create hp
  exact {
    erased := fun chosen => by
      obtain ⟨kept, t, erased, ht, same⟩ := exists_erased fresh hs chosen []
      rw [List.append_nil, Pool.erase, List.append_nil] at erased
      exact ⟨t, erased ▸ ht, .of_sameBut same⟩
    along := fun chosen done rest u all hu => by
      subst all
      obtain ⟨kept, t, erased, ht, same⟩ := exists_erased fresh hu chosen rest
      exact ⟨kept, t, erased, ht, same, fun caller => same.pool ▸ isSome_idle_without⟩
    only := fun chosen => ⟨erase_sublist chosen p steps, filter_erase chosen p steps⟩
    offered := fun caller job q es hstep => by
      have bound := queue_le fresh hs
      have full : s.pool.isFull = true ↔ s.pool.queue.length = c.queueCapacity := by
        rw [isFull, decide_eq_true_eq, capacity_eq hs, room]
        omega
      cases Moves.of_step? hstep with
      | offerClosed _ closed => simp [List.filterMap_cons, Event.refusal?, closed]
      | offerFull _ _ isFull => simp [Event.refusal?, full.1 isFull]
      | offerTaken _ unclosed room =>
        rw [Bool.eq_false_iff, ne_eq, full] at room
        simp [Event.refusal?, unclosed, room] }

theorem traceless_mixedRun :
    ∃ s, Play.run? { pool := mixedPool } mixedRun = some s ∧ s.Traceless 1 mixedPool mixedRun :=
  ⟨_, rfl, traceless (c := { queueCapacity := 1, workerCount := some 2, threadName := "a" })
    (show create _ 1 = .ok mixedPool from rfl) (show Play.run? _ mixedRun = _ from rfl)⟩

/-- Jobs 30 and 40 of this run are refused. -/
example : mixedPool.erase (fun _ _ => true) mixedRun =
    [.start (.client 0), .spawn false, .spawn false, .spawn false, .announce 0, .announce 1,
      .enqueue (.client 0) 10, .insert (.client 0), .take, .claim, .hand, .receive 0,
      .enqueue (.worker 0) 20, .insert (.worker 0), .conclude 0 (.panicked none) true,
      .take, .claim, .hand, .receive 1, .offer (.client 1) 35, .take, .claim,
      .discard false, .close (.client 1), .conclude 1 .done false, .complete 1, .settle] :=
  rfl

end Play

end Pool

end BatchPool
