import BatchPool.Proofs.Ingest.Output

/-!
# An ingest run ends

However small the queues are, and in whatever order the threads move: no thread waits for one that
waits for it in turn, and all schedules are short.

* `Ingest.Ends`: what holds of the end of a run, in each of its states.
* `Ingest.exists_returned`: a run that is made longer as long as some thread can move comes to its end.
* `Ingest.ends`: so it is for all records, whether the input was complete or not.
-/

namespace BatchPool

namespace Ingest

open BatchPool.Flow
open scoped List

variable {batchSize : Nat} {p : Pool (Job (List Record))} {w : Pool (Job Line)}
  {records : List Record} {complete : Bool} {f g : Flow Record Counters Line} {actors : List Actor}

/-- How an ingest run comes to its end, in one of its states. -/
structure Ends (size : Nat) (records : List Record) (complete : Bool)
    (f : Flow Record Counters Line) : Prop where
  /-- While the reading thread has not returned, some thread can move. -/
  goesOn : ¬f.Returned → ∃ actor ∈ f.actors, (f.step? plan actor).isSome = true
  /-- When it has, no thread can. -/
  stops : f.Returned → ∀ actor, f.step? plan actor = none
  /-- Then both pools are finished: their queues are empty, and their threads were joined. -/
  finished : f.Returned → f.feed.pool.Finished ∧ f.writer.pool.Finished
  /-- The writer was given the lines of all groups, and has written what it was given. -/
  handed : f.Returned → f.lines = f.writer.accepted.map (·.job.context) ∧
    ∃ groups, Summary size records groups (f.lines ++ missing complete groups records)
  /-- And it comes to that. -/
  reaches : ∃ more g, f.run? plan more = some g ∧ g.Returned

/-- **A run that goes on as long as it can comes to its end.** -/
theorem exists_returned (prepared : Prepared p w)
    (h : (fresh batchSize p w ({} : Counters) (commands records complete)).run? plan actors =
      some f) :
    ∃ more g, f.run? plan more = some g ∧ g.Returned := by
  -- The induction is on the steps that are left until the bound on all of them.
  generalize left : (fresh batchSize p w ({} : Counters) (commands records complete)).stepBound 2 -
    actors.length = n
  induction n using Nat.strong_induction_on generalizing actors f with
  | _ n ih =>
    by_cases returned : f.Returned
    · exact ⟨[], f, rfl, returned⟩
    · obtain ⟨actor, -, possible⟩ := (Steered.of_run prepared h).goesOn prepared returned
      obtain ⟨g, step⟩ := Option.isSome_iff_exists.1 possible
      have longer : (fresh batchSize p w ({} : Counters) (commands records complete)).run? plan
          (actors ++ [actor]) = some g := by
        rw [run?_append, h]
        simp [run?, step]
      have bound := length_lt_stepBound prepared within_task longer
      rw [List.length_append, List.length_singleton] at bound
      obtain ⟨more, k, ran, returned⟩ := ih _ (by simp; omega) longer rfl
      exact ⟨actor :: more, k, by simp only [run?, step, ran], returned⟩

/-- So it comes to its end, whatever its threads have done. -/
theorem ends_of_run (prepared : Prepared p w)
    (h : (fresh batchSize p w ({} : Counters) (commands records complete)).run? plan actors =
      some f) : Ends (effectiveSize batchSize) records complete f := by
  have steered := Steered.of_run prepared h
  obtain ⟨phase, staged⟩ := steered.staged
  exact {
    goesOn := steered.goesOn prepared
    stops := staged.stopped prepared.pool prepared.writer
    finished := staged.pools_finished prepared.pool prepared.writer
    handed := steered.handed prepared
    reaches := exists_returned prepared h }

/-- **An ingest run cannot get stuck, and it ends.** There are bounds on its schedules, and whatever
threads have moved, it can only end with both pools finished and all groups written. -/
theorem ends {c : IngestConfig} {processors : Nat} (records : List Record) (complete : Bool)
    (workers : 0 < c.pool.workers processors) (room : 0 < c.pool.queueCapacity) :
    ∃ f, start c processors records complete = .ok f ∧
      ∀ actors g, f.run? plan actors = some g →
        actors.length < f.stepBound 2 ∧ Ends (effectiveSize c.batch.size) records complete g := by
  obtain ⟨p, w, prepared, made⟩ := Flow.exists_create workers room room
    c.batch.size ({} : Counters) (commands records complete)
  exact ⟨_, made, fun actors g h =>
    ⟨length_lt_stepBound prepared within_task h, ends_of_run prepared h⟩⟩

/-- Two workers with room for one job come to an end with three records. -/
theorem ends_shortConfig :
    0 < shortConfig.pool.workers 1 ∧ 0 < shortConfig.pool.queueCapacity ∧
      ∃ f g actors, start shortConfig 1 ([1, 2, 3].map fun n => .ofValue (.int n)) true = .ok f ∧
        f.run? plan actors = some g ∧ g.Returned ∧ actors.length < f.stepBound 2 ∧
          g.writer.pool.Finished ∧ g.lines.length = 3 := by
  refine ⟨by decide, by decide, ?_⟩
  obtain ⟨f, made, all⟩ := @ends shortConfig 1
    ([1, 2, 3].map fun n => .ofValue (.int n)) true (by decide) (by decide)
  obtain ⟨actors, g, h, returned⟩ := (all [] f rfl).2.reaches
  obtain ⟨bound, last⟩ := all actors g h
  obtain ⟨-, groups, summary⟩ := last.handed returned
  refine ⟨f, g, actors, made, h, returned, bound, (last.finished returned).2, ?_⟩
  have lines := summary.lines_eq
  have two : groups.length = 2 := summary.length_eq
  rw [missing, if_pos rfl, List.append_nil] at lines
  rw [lines, List.length_append, List.length_map, two]
  rfl

end Ingest

end BatchPool
