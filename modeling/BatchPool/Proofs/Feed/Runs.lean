import BatchPool.Feed
import BatchPool.Proofs.Batch.Results
import BatchPool.Proofs.Pool.InFlight

/-!
# Runs of a feed

A run of a feed is a run of its batch and a run of its pool: what is known of either holds of the
feed.

* `Feed.run?`: a list of steps.
* `Feed.Moves`: what a step can do, and `Feed.Moves.of_step?`: no step does anything else.
* `Feed.run_induction`: what every move keeps holds after every run.
* `Feed.conserved`: the batch of a feed loses nothing.
* `Feed.PoolRun`: the run of the pool in a run of the feed, and `Feed.exists_poolRun`.
-/

namespace BatchPool

namespace Feed

open scoped List

variable {R : Type}

/-- The feed after a list of steps, where all of them are possible. -/
def run? (f : Feed R) : List (Step R) → Option (Feed R)
  | [] => some f
  | step :: rest =>
    match f.step? step with
    | some f => f.run? rest
    | none => none

/-- The record that is pushed by a step. -/
def Step.pushed? : Step R → Option R
  | .push _ record => some record
  | _ => none

/-- A flush begins by the step. -/
def Step.flushes : Step R → Bool
  | .flush _ => true
  | _ => false

/-- The job of a call of the pool that begins by a step, other than for the batch. -/
def Step.direct? : Step R → Option (Job (List R))
  | .pool step => step.job?
  | _ => none

/-- A report that is made in the step kills its thread. -/
def Step.panics : Step R → Bool
  | .pool step => step.panics
  | _ => false

/-- The groups that handlers were called with, as jobs. -/
def calledJobs (f : Feed R) : List (Job (List R)) := f.calls.called.map fun x => .ofContext x.group

/-- The handlers of the batch are the same. -/
abbrev handlers : Handlers Unit := { push := (), flush := () }

/-! ## Steps -/

/-- A handler returns by the step, if the thread that waited is in a call of the batch. -/
def returned? : Pool.Step (Job (List R)) → Option (Nat × Outcome)
  | .insert (.client t) => some (t, .done)
  | .rollback (.client t) => some (t, refusal)
  | _ => none

/-- What a step of a feed can do. -/
inductive Moves (f : Feed R) : Step R → Feed R → Prop where
  | push {t : Nat} {record : R} {calls : Batch.Calls R Unit} (free : f.free t = true)
      (move : f.calls.move? (.push t record) = some calls) :
    Moves f (.push t record) { f with calls := calls }
  | flush {t : Nat} {calls : Batch.Calls R Unit} (free : f.free t = true)
      (move : f.calls.move? (.flush t) = some calls) :
    Moves f (.flush t) { f with calls := calls }
  | enter {t : Nat} {group : List R} {rest : List (Batch.Frame R Unit)}
      {calls : Batch.Calls R Unit} {play : Pool.Play (Job (List R))}
      (holding : f.calls.stack t = .holding () group :: rest)
      (move : f.calls.move? (.enter t) = some calls)
      (enqueued : f.play.step? (.enqueue (.client t) (.ofContext group)) = some play) :
    Moves f (.enter t) { calls := calls, play := play }
  | answer {step : Pool.Step (Job (List R))} {play : Pool.Play (Job (List R))} {t : Nat}
      {outcome : Outcome} (moved : f.play.step? step = some play)
      (returned : returned? step = some (t, outcome)) :
    Moves f (.pool step) ({ f with play := play }.leave t outcome)
  | pool {step : Pool.Step (Job (List R))} {play : Pool.Play (Job (List R))}
      (allowed : f.allows step = true) (moved : f.play.step? step = some play)
      (other : returned? step = none) :
    Moves f (.pool step) { f with play := play }

variable {f g : Feed R}

/-- A step that is possible is one of these. -/
theorem Moves.of_step? {step : Step R} (h : f.step? step = some g) : Moves f step g := by
  cases step with
  | push t record =>
    simp only [step?] at h
    split at h
    · next free =>
      obtain ⟨calls, move, rfl⟩ := Option.map_eq_some_iff.1 h
      exact .push free move
    · cases h
  | flush t =>
    simp only [step?] at h
    split at h
    · next free =>
      obtain ⟨calls, move, rfl⟩ := Option.map_eq_some_iff.1 h
      exact .flush free move
    · cases h
  | enter t =>
    simp only [step?] at h
    split at h
    · next group rest holding =>
      split at h
      · next calls play move enqueued =>
        cases h
        exact .enter holding move enqueued
      · cases h
    · cases h
  | pool step =>
    simp only [step?] at h
    split at h
    · next allowed =>
      obtain ⟨play, moved, rfl⟩ := Option.map_eq_some_iff.1 h
      unfold afterPool
      split
      · exact .answer moved rfl
      · exact .answer moved rfl
      · next inserted rolledBack =>
        refine .pool allowed moved ?_
        unfold returned?
        split
        · next t => exact absurd rfl (inserted t)
        · next t => exact absurd rfl (rolledBack t)
        · rfl
    · cases h

/-- A thread that returns from its handler is in no call any more; another one is where it was. -/
theorem leave_cases (f : Feed R) (t : Nat) (outcome : Outcome) :
    (∃ group rest, f.calls.stack t = .serving () group :: rest ∧
        f.calls.move? (.leave t outcome) = some (f.leave t outcome).calls ∧
          f.leave t outcome =
            { f with calls := (f.calls.setStack t rest).note (.returned t outcome.reply) }) ∨
      ((∀ group rest, f.calls.stack t ≠ .serving () group :: rest) ∧ f.leave t outcome = f) := by
  unfold leave
  cases h : f.calls.move? (.leave t outcome) with
  | none =>
    refine .inr ⟨fun group rest serving => ?_, rfl⟩
    simp [Batch.Calls.move?, serving] at h
  | some calls =>
    refine .inl ?_
    simp only [Batch.Calls.move?] at h
    split at h
    · next group rest serving => cases h; exact ⟨group, rest, serving, rfl, rfl⟩
    · cases h

@[simp] theorem play_leave (f : Feed R) (t : Nat) (outcome : Outcome) :
    (f.leave t outcome).play = f.play := by
  unfold leave
  split <;> rfl

/-- A step of the feed is one of its pool, or enqueues a group, or leaves the pool as it is. -/
theorem Moves.play_cases {step : Step R} (hm : Moves f step g) :
    (g.play = f.play ∧ ∀ poolStep, step ≠ .pool poolStep) ∨
      ∃ poolStep, f.play.step? poolStep = some g.play ∧
        (step = .pool poolStep ∨
          (∃ t, step = .enter t) ∧ ∃ caller job, poolStep = .enqueue caller job) := by
  cases hm with
  | push | flush => exact .inl ⟨rfl, by simp⟩
  | enter _ _ enqueued => exact .inr ⟨_, enqueued, .inr ⟨⟨_, rfl⟩, _, _, rfl⟩⟩
  | answer moved => exact .inr ⟨_, by simpa using moved, .inl rfl⟩
  | pool _ moved => exact .inr ⟨_, moved, .inl rfl⟩

/-! ## Runs -/

theorem run?_append (f : Feed R) (a b : List (Step R)) :
    f.run? (a ++ b) = (f.run? a).bind fun g => g.run? b := by
  induction a generalizing f with
  | nil => rfl
  | cons step rest ih =>
    simp only [List.cons_append, run?]
    cases f.step? step with
    | none => rfl
    | some g => exact ih g

/-- What holds of a feed at its start and is kept by every move holds after every run. -/
theorem run_induction {start : Feed R} {motive : List (Step R) → Feed R → Prop}
    (base : motive [] start)
    (next : ∀ steps f step g, start.run? steps = some f → motive steps f → Moves f step g →
      motive (steps ++ [step]) g)
    {steps : List (Step R)} {f : Feed R} (h : start.run? steps = some f) : motive steps f := by
  -- The steps that are done are carried along, so that the induction is on those to come.
  suffices key : ∀ rest done (g : Feed R), start.run? done = some g → motive done g →
      g.run? rest = some f → motive (done ++ rest) f from
    key steps [] _ rfl base h
  intro rest
  induction rest with
  | nil =>
    intro done g _ hm hs
    simp only [run?, Option.some.injEq] at hs
    simpa [hs] using hm
  | cons step rest ih =>
    intro done g hg hm hs
    simp only [run?] at hs
    split at hs
    · next k hk =>
      have hdone : start.run? (done ++ [step]) = some k := by
        rw [run?_append, hg]
        simp [run?, hk]
      have := ih (done ++ [step]) k hdone (next done g step k hg hm (.of_step? hk)) hs
      simpa using this
    · cases hs

/-! ## The batch -/

variable {capacity : Nat}

/-- A move of a feed is a move of its batch, or leaves it alone. -/
theorem Moves.calls_move {step : Step R} (hm : Moves f step g) :
    (g.calls = f.calls ∧ step.pushed? = none ∧ step.flushes = false) ∨
      ∃ m, f.calls.move? m = some g.calls ∧ m.caller? ≠ none ∧ m.pushed? = step.pushed? ∧
        m.flushes = step.flushes := by
  cases hm with
  | push _ move | flush _ move | enter _ move =>
    exact .inr ⟨_, move, by simp [Batch.Calls.Move.caller?], rfl, rfl⟩
  | @answer step play t outcome =>
    obtain ⟨_, _, -, move, -⟩ | ⟨-, same⟩ := leave_cases { f with play := play } t outcome
    · exact .inr ⟨_, move, by simp [Batch.Calls.Move.caller?], rfl, rfl⟩
    · rw [same]
      exact .inl ⟨rfl, rfl, rfl⟩
  | pool => exact .inl ⟨rfl, rfl, rfl⟩

section

variable {batchSize : Nat} {p : Pool (Job (List R))} {steps : List (Step R)}

/-- **The batch of a feed loses nothing.** Its records are those that were pushed. -/
theorem conserved (hs : (ofPool batchSize p).run? steps = some f) :
    f.calls.Conserved (effectiveSize batchSize) handlers ∧
      f.calls.appended = steps.filterMap Step.pushed? := by
  refine run_induction
    (motive := fun steps f => f.calls.Conserved (effectiveSize batchSize) handlers ∧
      f.calls.appended = steps.filterMap Step.pushed?)
    ⟨Batch.Calls.conserved_init {} batchSize handlers, rfl⟩ ?_ hs
  intro steps f step g _ ih hm
  obtain ⟨kept, all⟩ := ih
  have last : [step].filterMap Step.pushed? = step.pushed?.toList := rfl
  rw [List.filterMap_append, last, ← all]
  obtain ⟨same, none, -⟩ | ⟨m, move, call, pushed, -⟩ := hm.calls_move
  · rw [same, none]
    exact ⟨kept, by simp⟩
  · have moves := kept.of_move? call move
    exact ⟨kept.next moves, by rw [moves.appended_eq, pushed]⟩

/-! ## The pool -/

/-- The run of the pool in a run of the feed: its own steps, and the calls of the handlers. -/
structure PoolRun (p : Pool (Job (List R))) (steps : List (Step R))
    (poolSteps : List (Pool.Step (Job (List R)))) (f : Feed R) : Prop where
  run : Pool.Play.run? { pool := p } poolSteps = some f.play
  own : ∀ step ∈ poolSteps,
    .pool step ∈ steps ∨ ∃ t group, step = .enqueue (.client t) (.ofContext group)
  jobs : (Pool.calls poolSteps).Perm (f.calledJobs ++ steps.filterMap Step.direct?)

/-- One more step of the pool. -/
theorem PoolRun.append {poolSteps : List (Pool.Step (Job (List R)))} {step : Step R}
    {poolStep : Pool.Step (Job (List R))} (h : PoolRun p steps poolSteps f)
    (moved : f.play.step? poolStep = some g.play)
    (own : step = .pool poolStep ∨ ∃ t group, poolStep = .enqueue (.client t) (.ofContext group))
    (jobs : f.calledJobs ++ poolStep.job?.toList = g.calledJobs ++ step.direct?.toList) :
    PoolRun p (steps ++ [step]) (poolSteps ++ [poolStep]) g where
  run := by
    rw [Pool.Play.run?_append, h.run]
    simp [Pool.Play.run?, moved]
  own := by
    intro other hother
    obtain before | now := List.mem_append.1 hother
    · exact (h.own other before).imp_left (List.mem_append_left _)
    · rw [List.mem_singleton.1 now]
      exact own.imp_left fun same => by simp [same]
  jobs := by
    have all : Pool.calls (poolSteps ++ [poolStep]) =
        Pool.calls poolSteps ++ poolStep.job?.toList := List.filterMap_append ..
    rw [all, List.filterMap_append]
    calc Pool.calls poolSteps ++ poolStep.job?.toList
      _ ~ f.calledJobs ++ steps.filterMap Step.direct? ++ poolStep.job?.toList :=
          h.jobs.append_right _
      _ ~ f.calledJobs ++ poolStep.job?.toList ++ steps.filterMap Step.direct? := by
          rw [List.append_assoc, List.append_assoc]
          exact List.perm_append_comm.append_left _
      _ ~ g.calledJobs ++ (steps.filterMap Step.direct? ++ step.direct?.toList) := by
          rw [jobs, List.append_assoc]
          exact List.perm_append_comm.append_left _

/-- A step of a feed in which its pool does not move. -/
theorem PoolRun.still {poolSteps : List (Pool.Step (Job (List R)))} {step : Step R}
    (h : PoolRun p steps poolSteps f) (play : g.play = f.play)
    (called : g.calls.called = f.calls.called) (direct : step.direct? = none) :
    PoolRun p (steps ++ [step]) poolSteps g where
  run := play ▸ h.run
  own := fun other hother => (h.own other hother).imp_left (List.mem_append_left _)
  jobs := by
    have same : g.calledJobs = f.calledJobs := by rw [calledJobs, calledJobs, called]
    simpa [same, direct] using h.jobs

/-- **A run of a feed has a run of its pool in it.** -/
theorem exists_poolRun (hs : (ofPool batchSize p).run? steps = some f) :
    ∃ poolSteps, PoolRun p steps poolSteps f := by
  refine run_induction (motive := fun steps f => ∃ poolSteps, PoolRun p steps poolSteps f) ?_ ?_ hs
  · exact ⟨[], rfl, by simp, .refl []⟩
  · intro steps f step g hf ih hm
    obtain ⟨poolSteps, h⟩ := ih
    have kept := (conserved hf).1
    cases hm with
    | push _ move | flush _ move =>
      have called := (kept.of_move? (by simp [Batch.Calls.Move.caller?]) move).called_eq
      exact ⟨poolSteps, h.still rfl (by simpa [Batch.Calls.entered] using called) rfl⟩
    | @enter t group rest calls play holding move enqueued =>
      have called := (kept.of_move? (by simp [Batch.Calls.Move.caller?]) move).called_eq
      refine ⟨_, h.append enqueued (.inr ⟨t, group, rfl⟩) ?_⟩
      simp [calledJobs, called, Batch.Calls.entered, Batch.Calls.inHand, holding, Pool.Step.job?,
        Step.direct?]
    | @answer step play t outcome moved =>
      have called : (leave { f with play := play } t outcome).calls.called = f.calls.called := by
        obtain ⟨_, _, -, move, -⟩ | ⟨-, same⟩ := leave_cases { f with play := play } t outcome
        · have moves := kept.of_move? (by simp [Batch.Calls.Move.caller?]) move
          simpa [Batch.Calls.entered] using moves.called_eq
        · rw [same]
      refine ⟨_, h.append (by simpa using moved) (.inl rfl) ?_⟩
      rw [calledJobs, calledJobs, called]
      rfl
    | pool _ moved => exact ⟨_, h.append moved (.inl rfl) rfl⟩

end

end Feed

end BatchPool
