import BatchPool.Proofs.Pool.Stages

/-!
# The calls that enqueue jobs

* `Pool.Step.job?`: the job of a call that begins by a step; `Pool.calls` are those of a run.
* `Play.waiting_callers`: no thread waits for room twice at a time.
* `Play.calls_eq`: every call is still waiting, or its job entered the queue, or it was refused.
* `Play.enqueues_eq`: the calls that wait are those that have begun and not returned.
-/

namespace BatchPool

namespace Pool

variable {J : Type}

/-- The job of a call that begins by a step. -/
def Step.job? : Step J → Option J
  | .enqueue _ job | .offer _ job => some job
  | _ => none

/-- A call that waits for room begins by the step. -/
def Step.enqueues : Step J → Bool
  | .enqueue _ _ => true
  | _ => false

/-- A call that waited for room returns by the step. -/
def Step.returns : Step J → Bool
  | .insert _ | .rollback _ => true
  | _ => false

/-- The job with which a thread waits for room. -/
def waitingJob? (p : Pool J) (thread : Thread) : Option J := (p.waitingOf? thread).map (·.job)

/-- The job with which a thread waits for room after a step, by the one before. -/
def Step.waitingJob (thread : Thread) (before : Option J) : Step J → Option J
  | .enqueue caller job => if caller = thread then some job else before
  | .insert caller | .rollback caller => if caller = thread then none else before
  | _ => before

/-- A call that waits for room, told that the queue is closed if it is one of the thread. -/
def Waiting.refuse (caller : Thread) (c : Waiting J) : Waiting J :=
  if c.caller = caller then { c with refused := true } else c

/-- The jobs of the calls that began in a run. -/
def calls (steps : List (Step J)) : List J := steps.filterMap Step.job?

/-- The job that was refused. -/
def Event.refused? : Event J → Option J
  | .rejected _ job | .overflowed _ job => some job
  | _ => none

/-- The jobs that were refused. -/
def Play.refused (s : Play J) : List J := s.events Event.refused?

variable {p q : Pool J} {step : Step J} {events : List (Event J)} {caller : Thread}

/-! ## One call for each thread -/

/-- A thread that can make a call waits in none. -/
theorem not_waiting_of_mayCall (h : p.mayCall caller = true) :
    caller ∉ p.waiting.map (·.caller) := by
  simp only [mayCall, busy, Bool.and_eq_true, Bool.not_eq_true', Bool.or_eq_false_iff] at h
  obtain ⟨⟨-, ⟨hw, -⟩, -⟩, -⟩ := h
  intro hmem
  obtain ⟨c, hc, rfl⟩ := List.mem_map.1 hmem
  simpa using List.any_eq_false.1 hw c hc

/-- What is in a list without repeated keys is found by its key. -/
theorem find?_of_mem {α β : Type} [DecidableEq β] {l : List α} {a : α} (key : α → β)
    (nodup : (l.map key).Nodup) (ha : a ∈ l) : l.find? (fun b => key b = key a) = some a := by
  induction l with
  | nil => cases ha
  | cons b rest ih =>
    simp only [List.map_cons, List.nodup_cons] at nodup
    obtain rfl | later := List.mem_cons.1 ha
    · simp
    · have other : key b ≠ key a := fun h => nodup.1 (h ▸ List.mem_map_of_mem later)
      rw [List.find?_cons_of_neg (by simpa using other)]
      exact ih nodup.2 later

theorem Moves.callers_nodup (h : Moves p step q events)
    (nodup : (p.waiting.map (·.caller)).Nodup) : (q.waiting.map (·.caller)).Nodup := by
  cases h with
  | enqueue free =>
    rw [List.map_append, List.nodup_append]
    refine ⟨nodup, by simp, ?_⟩
    rintro a ha b hb rfl
    simp only [List.map_cons, List.map_nil, List.mem_singleton] at hb
    exact not_waiting_of_mayCall free (hb ▸ ha)
  | insert | rollback => exact nodup.sublist (List.filter_sublist.map _)
  | @refuse caller c =>
    have callers : (fun c : Waiting J => c.caller) ∘
        (fun c => if c.caller = caller then { c with refused := true } else c) =
        fun c => c.caller := by
      funext c
      simp only [Function.comp_apply]
      split <;> rfl
    simpa [List.map_map, callers] using nodup
  | _ => exact nodup

/-- A thread that can make a call waits in none, as it is looked up. -/
theorem waitingOf?_of_mayCall (h : p.mayCall caller = true) : p.waitingOf? caller = none :=
  List.find?_eq_none.2 fun c hc hcaller =>
    not_waiting_of_mayCall h (List.mem_map.2 ⟨c, hc, of_decide_eq_true hcaller⟩)

/-- What a step does to the job with which a thread waits for room. -/
theorem Moves.waitingJob_next (h : Moves p step q events) (thread : Thread) :
    q.waitingJob? thread = step.waitingJob thread (p.waitingJob? thread) := by
  cases h with
  | @enqueue caller job free =>
    have none := waitingOf?_of_mayCall free
    rw [waitingOf?] at none
    by_cases same : caller = thread
    · subst same
      simp [waitingJob?, waitingOf?, Step.waitingJob, List.find?_append, none]
    · simp [waitingJob?, waitingOf?, Step.waitingJob, List.find?_append, same]
  | @insert caller | @rollback caller =>
    rw [waitingJob?, waitingOf?, List.find?_filter]
    by_cases same : caller = thread
    · subst same
      simp [Step.waitingJob]
    · have others : ∀ c : Waiting J, c.caller ≠ caller ∧ c.caller = thread ↔ c.caller = thread :=
        fun c => and_iff_right_of_imp fun here there => same (there.symm.trans here)
      simp only [decide_eq_true_eq, others, Step.waitingJob, same, if_false, waitingJob?, waitingOf?]
  | @refuse caller =>
    have callers : ∀ c : Waiting J,
        (if c.caller = caller then { c with refused := true } else c).caller = c.caller := by
      intro c
      split <;> rfl
    have jobs : ∀ c : Waiting J,
        (if c.caller = caller then { c with refused := true } else c).job = c.job := by
      intro c
      split <;> rfl
    simp only [waitingJob?, waitingOf?, List.find?_map, Option.map_map, Function.comp_def, callers,
      jobs, Step.waitingJob]
  | _ => rfl

/-- The call of a thread and those of the others. -/
theorem perm_cons_filter {l : List (Waiting J)} {c : Waiting J}
    (nodup : (l.map (·.caller)).Nodup)
    (call : l.find? (fun d : Waiting J => d.caller = caller) = some c) :
    l.Perm (c :: l.filter fun d : Waiting J => d.caller ≠ caller) := by
  induction l with
  | nil => cases call
  | cons d rest ih =>
    simp only [List.map_cons, List.nodup_cons] at nodup
    by_cases hd : d.caller = caller
    · rw [List.find?_cons_of_pos (by simpa using hd)] at call
      cases call
      have others : (rest.filter fun e : Waiting J => e.caller ≠ caller) = rest := by
        refine List.filter_eq_self.2 fun e he => ?_
        have : e.caller ≠ c.caller := fun heq => nodup.1 (heq ▸ List.mem_map_of_mem he)
        simpa [hd] using this
      rw [List.filter_cons_of_neg (by simpa using hd), others]
    · rw [List.find?_cons_of_neg (by simpa using hd)] at call
      rw [List.filter_cons_of_pos (by simpa using hd)]
      exact ((ih nodup.2 call).cons d).trans (.swap _ _ _)

/-- A call that begins waits, or its job enters the queue or is refused, and so for one that
returns. -/
theorem Moves.calls_law (h : Moves p step q events) (nodup : (p.waiting.map (·.caller)).Nodup) :
    (q.waiting.map (·.job) : Multiset J) +
        ((events.filterMap Event.accepted?).map (·.job) : Multiset J) +
        (events.filterMap Event.refused? : Multiset J) =
      (p.waiting.map (·.job) : Multiset J) + (step.job?.toList : Multiset J) := by
  cases h with
  | enqueue =>
    simp only [List.map_append, ← Multiset.coe_add]
    simp [Step.job?]
  | insert call | rollback call =>
    have waiting := Multiset.coe_eq_coe.2 ((perm_cons_filter nodup call).map (·.job))
    rw [waiting]
    simp only [List.map_cons, ← Multiset.cons_coe, ← Multiset.singleton_add]
    simp [Step.job?, List.filterMap_cons, Event.accepted?, Event.refused?, add_comm]
  | @refuse caller c =>
    have jobs : (fun c : Waiting J => c.job) ∘
        (fun c => if c.caller = caller then { c with refused := true } else c) =
        fun c => c.job := by
      funext c
      simp only [Function.comp_apply]
      split <;> rfl
    simp [Step.job?, List.map_map, jobs]
  | _ => simp [Step.job?, List.filterMap_cons, Event.accepted?, Event.refused?, failStart]

/-- A call that waits began and has not returned. -/
theorem Moves.length_waiting (h : Moves p step q events)
    (nodup : (p.waiting.map (·.caller)).Nodup) :
    q.waiting.length + step.returns.toNat = p.waiting.length + step.enqueues.toNat := by
  cases h with
  | insert call | rollback call =>
    have := (perm_cons_filter nodup call).length_eq
    simp only [List.length_cons] at this
    simp [Step.returns, Step.enqueues, this]
  | _ => simp [Step.returns, Step.enqueues]

/-! ## Runs -/

namespace Play

variable {steps : List (Step J)} {s : Play J}

/-- No thread waits for room twice at a time. -/
theorem waiting_callers (hp : p.Fresh) (hs : Play.run? { pool := p } steps = some s) :
    (s.pool.waiting.map (·.caller)).Nodup :=
  run_induction (motive := fun _ s => (s.pool.waiting.map (·.caller)).Nodup)
    (by simp [hp.waiting]) (fun _ _ _ _ _ _ ih hm => hm.callers_nodup ih) hs

/-- The job of every call is still waiting, or it entered the queue, or it was refused. -/
theorem calls_eq (hp : p.Fresh) (hs : Play.run? { pool := p } steps = some s) :
    (calls steps : Multiset J) =
      (s.pool.waiting.map (·.job) : Multiset J) + (s.accepted.map (·.job) : Multiset J) +
        (s.refused : Multiset J) := by
  refine run_induction
    (motive := fun steps s => (calls steps : Multiset J) =
      (s.pool.waiting.map (·.job) : Multiset J) + (s.accepted.map (·.job) : Multiset J) +
        (s.refused : Multiset J)) ?_ ?_ hs
  · simp [calls, hp.waiting, accepted, refused, events]
  · intro steps s step q es hs ih hm
    have law := hm.calls_law (waiting_callers hp hs)
    have last : (calls [step] : Multiset J) = (step.job?.toList : Multiset J) := by
      cases hj : step.job? <;> simp [calls, hj]
    have both : calls (steps ++ [step]) = calls steps ++ calls [step] := by simp [calls]
    simp only [accepted_eq_events, refused, events_next, pool_next, List.map_append,
      ← Multiset.coe_add] at ih ⊢
    rw [both, ← Multiset.coe_add, ih, last]
    calc _ = (s.pool.waiting.map (·.job) : Multiset J) + (step.job?.toList : Multiset J)
          + ((s.events Event.accepted?).map (·.job) : Multiset J)
          + (s.events Event.refused? : Multiset J) := by abel
      _ = _ := by rw [← law]; abel

/-- The calls that wait for room are those that began and have not returned. -/
theorem enqueues_eq (hp : p.Fresh) (hs : Play.run? { pool := p } steps = some s) :
    s.pool.waiting.length + steps.countP Step.returns = steps.countP Step.enqueues := by
  refine run_induction
    (motive := fun steps s => s.pool.waiting.length + steps.countP Step.returns =
      steps.countP Step.enqueues) ?_ ?_ hs
  · simp [hp.waiting]
  · intro steps s step q es hs ih hm
    have law := hm.length_waiting (waiting_callers hp hs)
    have last : ∀ f : Step J → Bool, [step].countP f = (f step).toNat := fun f => by
      cases hf : f step <;> simp [hf]
    simp only [pool_next, List.countP_append, last]
    omega

end Play

end Pool

end BatchPool
