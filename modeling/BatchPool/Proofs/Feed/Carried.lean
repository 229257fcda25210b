import BatchPool.Proofs.Feed.Answers
import BatchPool.Proofs.Pool.Shutdown

/-!
# A batch that feeds a pool loses nothing

Every record that was pushed is in the buffer, in a group on its way to the pool, in a job of the
pool, or in a group that was refused, even if the queue is closed in between.

* `Feed.inTransit`: the groups on their way.
* `Feed.groups_perm`: where the groups are.
* `Feed.records_of_flushed`: what a flush leaves.
* `Feed.Carried`: what follows for every run in which only the batch feeds the pool.
-/

namespace BatchPool

namespace Feed

open scoped List

variable {R : Type} {f g : Feed R} {step : Step R} {steps : List (Step R)} {batchSize : Nat}
  {p : Pool (Job (List R))}

/-- The groups that were taken out and have neither entered the queue nor been refused: their handler
is still to be called, or it is in its call of the pool. -/
def inTransit (f : Feed R) : List (List R) :=
  f.calls.holding ++ f.pool.waiting.map (·.job.context)

/-- The groups that entered the queue. -/
def acceptedGroups (f : Feed R) : List (List R) := f.play.accepted.map (·.job.context)

/-- The groups that were refused. -/
def refusedGroups (f : Feed R) : List (List R) := f.play.refused.map (·.context)

/-- The groups that the work function has ended on. -/
def endedGroups (f : Feed R) : List (List R) := f.play.ended.map (·.2.job.context)

/-! ## Groups -/

theorem delivered (hs : (ofPool batchSize p).run? steps = some f) : f.calls.Delivered := by
  refine run_induction (motive := fun _ f => f.calls.Delivered) ?_ ?_ hs
  · exact ⟨.nil, .refl []⟩
  · intro steps f step g hf ih hm
    obtain ⟨same, -⟩ | ⟨m, move, call, -⟩ := hm.calls_move
    · rw [same]
      exact ih
    · exact ih.next ((conserved hf).1.of_move? call move)

/-- **A group that was taken out is on its way, or it entered the queue or was refused.** -/
theorem groups_perm (hp : p.Fresh) (hs : (ofPool batchSize p).run? steps = some f)
    (own : ∀ step ∈ steps, step.direct? = none) :
    f.calls.taken.map (·.group) ~ f.inTransit ++ f.acceptedGroups ++ f.refusedGroups := by
  obtain ⟨poolSteps, h⟩ := exists_poolRun hs
  have direct : steps.filterMap Step.direct? = [] := List.filterMap_eq_nil_iff.2 own
  have jobs := h.jobs
  rw [direct, List.append_nil] at jobs
  have answered : Pool.calls poolSteps ~
      f.pool.waiting.map (·.job) ++ f.play.accepted.map (·.job) ++ f.play.refused := by
    rw [← Multiset.coe_eq_coe, Pool.Play.calls_eq hp h.run]
    simp only [← Multiset.coe_add]
    rfl
  have called : f.calls.called.map (·.group) ~
      f.pool.waiting.map (·.job.context) ++ f.acceptedGroups ++ f.refusedGroups := by
    have := (jobs.symm.trans answered).map Job.context
    simpa [calledJobs, Job.ofContext, Function.comp_def, acceptedGroups, refusedGroups] using this
  calc f.calls.taken.map (·.group)
    _ ~ f.calls.called.map (·.group) ++ f.calls.holding := (delivered hs).groups
    _ ~ f.calls.holding ++ f.calls.called.map (·.group) := List.perm_append_comm
    _ ~ f.inTransit ++ f.acceptedGroups ++ f.refusedGroups := by
        simpa [inTransit] using called.append_left f.calls.holding

/-- Only a flush takes out a group that is not full. -/
theorem partial_le (hs : (ofPool batchSize p).run? steps = some f) :
    (f.calls.taken.filter fun x => x.group.length ≠ effectiveSize batchSize).length ≤
      steps.countP Step.flushes := by
  refine run_induction
    (motive := fun steps f =>
      (f.calls.taken.filter fun x => x.group.length ≠ effectiveSize batchSize).length ≤
        steps.countP Step.flushes) ?_ ?_ hs
  · exact Nat.le_refl 0
  · intro steps f step g hf ih hm
    have last : [step].countP Step.flushes = step.flushes.toNat := by
      cases h : step.flushes <;> simp [h]
    rw [List.countP_append, last]
    obtain ⟨same, -⟩ | ⟨m, move, call, -, flushes⟩ := hm.calls_move
    · rw [same]
      omega
    · have kept := (conserved hf).1
      have next := (kept.of_move? call move).partial_next kept.capacity_eq
      rw [flushes] at next
      omega

/-- After a flush that no push follows, nothing is buffered. -/
theorem records_of_flushed {before after : List (Step R)} {t : Nat}
    (hs : (ofPool batchSize p).run? (before ++ .flush t :: after) = some f)
    (last : ∀ step ∈ after, step.pushed? = none) : f.calls.batch.records = [] := by
  refine run_induction
    (motive := fun steps f => ∀ after, (∃ before t, steps = before ++ .flush t :: after) →
      (∀ step ∈ after, step.pushed? = none) → f.calls.batch.records = []) ?_ ?_ hs after
      ⟨before, t, rfl⟩ last
  · rintro after ⟨before, t, h⟩ -
    simp at h
  · rintro steps f step g hf ih hm after ⟨before, t, h⟩ last
    have kept := (conserved hf).1
    obtain rfl | ⟨init, final, rfl⟩ := List.eq_nil_or_concat after
    · obtain ⟨-, same⟩ := List.append_inj' h rfl
      cases same
      obtain ⟨-, -, flushes⟩ | ⟨m, move, call, -, flushes⟩ := hm.calls_move
      · cases flushes
      · exact (kept.of_move? call move).records_nil (.inl flushes)
    · rw [List.concat_eq_append, ← List.cons_append, ← List.append_assoc] at h
      obtain ⟨rfl, same⟩ := List.append_inj' h rfl
      cases same
      rw [List.concat_eq_append] at last
      have empty := ih init ⟨before, t, rfl⟩ fun step h => last step (List.mem_append_left _ h)
      obtain ⟨same, -⟩ | ⟨m, move, call, pushed, -⟩ := hm.calls_move
      · rw [same]
        exact empty
      · have none := last step (by simp)
        exact (kept.of_move? call move).records_nil (.inr ⟨pushed.trans none, empty⟩)

/-- If nothing is refused, no call of the batch fails. -/
theorem Linked.ok {t : Nat} (h : Linked f t) (none : f.play.refused = []) :
    ∀ x ∈ f.calls.results t, x.2 = .ok := by
  rintro ⟨group, reply⟩ hx
  cases group with
  | none => exact h.others _ hx rfl
  | some group =>
    have answered : (group, reply) ∈ f.answers t := by
      rw [← h.groups]
      exact List.mem_filterMap.2 ⟨_, hx, rfl⟩
    obtain ⟨e, he, answer⟩ := Pool.Play.mem_events.1 answered
    cases e with
    | accepted caller ticket =>
      by_cases own : caller = .client t
      · rw [answer?, if_pos own] at answer
        cases answer
        rfl
      · rw [answer?, if_neg own] at answer
        cases answer
    | rejected caller job =>
      have : job ∈ f.play.refused := Pool.Play.mem_events.2 ⟨_, he, rfl⟩
      rw [none] at this
      cases this
    | _ => cases answer

/-- When nothing is on its way, and a call returns that waits until no job is in flight, the work
function has ended on all groups that were not refused. -/
theorem ended_of_idle {poolSteps : List (Pool.Step (Job (List R)))} {caller : Thread}
    (hp : p.Fresh) (h : PoolRun p steps poolSteps f)
    (quiet : ∀ step ∈ poolSteps, step.panics = false)
    (groups : f.calls.taken.map (·.group) ~ f.inTransit ++ f.acceptedGroups ++ f.refusedGroups)
    (returned : f.calls.callStacks = []) (hg : f.step? (.pool (.idle caller)) = some g) :
    f.calls.taken.map (·.group) ~ f.endedGroups ++ f.refusedGroups := by
  have idle : f.pool.inFlight = 0 := by
    cases Moves.of_step? hg with
    | answer _ other => cases other
    | pool _ moved =>
      obtain ⟨q, events, moves, -⟩ := Pool.Play.moves_of_step? moved
      cases moves
      assumption
  have counted : f.pool.inFlight = _ := Pool.Play.inFlight_eq hp h.run
  have waiting : f.pool.waiting = [] :=
    List.eq_nil_of_length_eq_zero (by change f.play.pool.waiting.length = 0; omega)
  have transit : f.inTransit = [] := by
    simp [inTransit, Batch.Calls.holding, returned, waiting]
  have done := (Pool.Play.all_done hp h.run quiet (by omega)).2.2
  rw [transit, List.nil_append] at groups
  have ended : f.acceptedGroups ~ f.endedGroups := by
    simpa [acceptedGroups, endedGroups, Function.comp_def] using
      (done.symm.map fun ticket => ticket.job.context)
  exact groups.trans (ended.append_right _)

/-! ## Runs -/

/-- A batch that feeds a pool by the given steps loses nothing. -/
structure Carried (batchSize : Nat) (steps : List (Step R)) (f : Feed R) : Prop where
  /-- The groups that were taken out, and behind them the buffer, are the records that were pushed, in
  the order of the pushes. -/
  records : (f.calls.taken.map (·.group)).flatten ++ f.calls.batch.records =
    steps.filterMap Step.pushed?
  /-- A group that was taken out is on its way, or it entered the queue, or it was refused. -/
  groups : f.calls.taken.map (·.group) ~ f.inTransit ++ f.acceptedGroups ++ f.refusedGroups
  /-- Every thread has one group on its way at most. -/
  transit : ∀ t, (f.calls.stack t).length ≤ 1
  /-- A group that entered the queue is at one place, -/
  somewhere : ∀ ticket ∈ f.play.accepted, ∃! place, (place, ticket) ∈ f.play.places
  /-- which is the queue, the loop, a slot or a worker that it is with or was ended by. -/
  placed : ∀ x ∈ f.play.places, x.1 ≠ .discarded ∧ ∀ thread, x.1 ≠ .lost thread
  /-- The calls of a thread that took a group out come to what the pool answered about the group: a
  call fails, and says that the queue is closed, exactly if its own group was refused. -/
  answered : ∀ t, f.groupReplies t = f.answers t
  /-- Its other calls succeed. -/
  others : ∀ t, ∀ x ∈ f.calls.results t, x.1 = none → x.2 = .ok
  /-- While the queue is open, no group is refused, and every call succeeds. -/
  unrefused : f.pool.closed = false →
    f.refusedGroups = [] ∧ ∀ t, ∀ x ∈ f.calls.results t, x.2 = .ok
  /-- If the queue is open, all calls have returned, no record was pushed after some flush, and a call
  that waits until no job is in flight returns, then the work function has ended on groups that are
  the records in the order of the pushes, and no more of them are smaller than the others than there
  were flushes. -/
  idle : f.pool.closed = false → f.calls.callStacks = [] →
    (∃ before t after, steps = before ++ .flush t :: after ∧
      ∀ step ∈ after, step.pushed? = none) →
    ∀ caller g, f.step? (.pool (.idle caller)) = some g →
      ∃ groups, f.endedGroups ~ groups ∧ groups.flatten = steps.filterMap Step.pushed? ∧
        (∀ group ∈ groups, 1 ≤ group.length ∧ group.length ≤ effectiveSize batchSize) ∧
          (groups.filter fun group => group.length ≠ effectiveSize batchSize).length ≤
            steps.countP Step.flushes

/-- **A batch that feeds a pool loses nothing.** -/
theorem carried {c : PoolConfig} {processors : Nat} (made : Pool.create c processors = .ok p)
    (hs : (ofPool batchSize p).run? steps = some f) (calm : ∀ step ∈ steps, step.panics = false)
    (own : ∀ step ∈ steps, step.direct? = none) : f.Carried batchSize steps := by
  have fresh := Pool.Fresh.of_create made
  obtain ⟨kept, pushed⟩ := conserved hs
  obtain ⟨poolSteps, h⟩ := exists_poolRun hs
  have quiet : ∀ step ∈ poolSteps, step.panics = false := by
    intro step hstep
    obtain mine | ⟨t, group, rfl⟩ := h.own step hstep
    · exact calm _ mine
    · rfl
  have waits : ∀ step ∈ poolSteps, step.offers = false := by
    intro step hstep
    obtain mine | ⟨t, group, rfl⟩ := h.own step hstep
    · have direct := own _ mine
      cases step with
      | offer => cases direct
      | _ => rfl
    · rfl
  have groups := groups_perm fresh hs own
  have link := linked fresh hs own
  have places : (f.play.places.map (·.2)).Perm f.play.accepted :=
    Multiset.coe_eq_coe.1 (Pool.Play.coe_places fresh h.run)
  have once := places.nodup_iff.2 (Pool.Play.accepted_nodup fresh h.run)
  have records : (f.calls.taken.map (·.group)).flatten ++ f.calls.batch.records =
      steps.filterMap Step.pushed? := kept.records.trans pushed
  exact {
    records := records
    groups := groups
    transit := fun t => (link t).stage.length_le
    somewhere := fun t ht => Pool.existsUnique_fst once (places.mem_iff.2 ht)
    placed := Pool.Play.placed fresh h.run quiet
    answered := fun t => (link t).groups
    others := fun t => (link t).others
    unrefused := fun unclosed =>
      have none := (Pool.Play.unrefused fresh h.run waits unclosed).1
      ⟨by simp [refusedGroups, none], fun t => (link t).ok none⟩
    idle := fun unclosed returned flushed caller g hg => by
      have none := (Pool.Play.unrefused fresh h.run waits unclosed).1
      have ended := ended_of_idle fresh h quiet groups returned hg
      obtain ⟨before, t, after, rfl, last⟩ := flushed
      rw [records_of_flushed hs last, List.append_nil] at records
      refine ⟨_, ?_, records, ?_, ?_⟩
      · simpa [refusedGroups, none] using ended.symm
      · intro group hgroup
        obtain ⟨x, hx, rfl⟩ := List.mem_map.1 hgroup
        have pos := effectiveSize_pos batchSize
        obtain ⟨-, full⟩ | ⟨-, some, few⟩ := kept.groups x hx <;> omega
      · rw [List.filter_map, List.length_map]
        exact partial_le hs }

/-- A pool of one worker with room for one group in the queue. -/
def groupPool : Pool (Job (List Nat)) := { name := "a", capacity := 1, workers := [{}] }

/-- The steps by which its worker does a group. -/
def doGroup : List (Step Nat) :=
  [.pool (.announce 0), .pool .take, .pool .claim, .pool .hand, .pool (.receive 0),
    .pool (.conclude 0 .done false), .pool (.complete 0)]

/-- Two threads push three records in groups of two, and one of them flushes. -/
def openRun : List (Step Nat) :=
  [.pool (.start (.client 2)), .pool (.spawn false), .pool (.spawn false), .push 0 10, .push 1 11,
    .enter 1, .push 0 12, .pool (.insert (.client 1))] ++ doGroup ++
  [.flush 1, .enter 1, .pool (.insert (.client 1))] ++ doGroup

/-- Two threads push five records. The one waits for room with its group when the queue is closed. -/
def closedRun : List (Step Nat) :=
  [.push 0 10, .push 1 11, .push 0 12, .push 0 13, .enter 1, .pool (.insert (.client 1)), .enter 0,
    .pool (.close (.client 2)), .pool (.refuse (.client 0)), .pool (.rollback (.client 0)), .push 1 14]

theorem carried_openRun :
    ∃ f g, (ofPool 2 groupPool).run? openRun = some f ∧ f.Carried 2 openRun ∧
      f.endedGroups = [[10, 11], [12]] ∧ (f.step? (.pool (.idle (.client 0)))).isSome = true ∧
      f.groupReplies 1 = [([10, 11], .ok), ([12], .ok)] ∧
      (ofPool 2 groupPool).run? closedRun = some g ∧ g.Carried 2 closedRun ∧
      g.refusedGroups = [[12, 13]] ∧
      g.groupReplies 0 = [([12, 13], .failed { cause := .pool .closed })] ∧
      g.groupReplies 1 = [([10, 11], .ok)] :=
  have made : Pool.create { queueCapacity := 1, workerCount := some 1, threadName := "a" } 1 =
    .ok groupPool := rfl
  ⟨_, _, rfl, carried made rfl (by decide) (by decide), rfl, rfl, rfl, rfl,
    carried made rfl (by decide) (by decide), rfl, rfl, rfl⟩

end Feed

end BatchPool
