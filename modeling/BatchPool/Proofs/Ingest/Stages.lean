import BatchPool.Ingest.Line
import BatchPool.Proofs.Flow.Work
import Mathlib.Algebra.BigOperators.Group.Multiset.Basic
import Mathlib.Data.Multiset.Filter

/-!
# The stages of a job

A worker takes the group of a job from stage to stage: the group gets its number, its records are
counted, its line is handed to the writer. The last job reads both counters one after the other.

* `Ingest.Stage`, with `Stage.task`, what is still to be done, and `Stage.advance`, the next stage.
* `Ingest.Balance`: every group that a worker was started on is without a number, or its line has still
  to be handed over, or it was; the counters say how many were numbered and counted.
* `Balance.advance`, `Balance.send`, …: what the moves of the workers keep.
-/

namespace BatchPool

namespace Ingest

/-- The line is about a group. -/
def Line.isGroup : Line → Bool
  | .group _ _ _ => true
  | .totals _ _ => false

/-- The line of a group. -/
def groupLine (number : Nat) (group : List Record) : Line :=
  .group number group.length (types group)

/-- How far a worker has come with its job. -/
inductive Stage where
  | fresh (job : Job (List Record))
  | numbered (number : Nat) (group : List Record)
  | summing (groups : Nat)
  | calling (line : Line)
  | done

namespace Stage

/-- What is still to be done. -/
def task : Stage → Task Counters Line
  | fresh job => Ingest.task job
  | numbered number group => groupTask group number
  | summing groups => .act fun c => (.call (.totals groups c.records), c)
  | calling line => .call line
  | done => .stop .done

/-- The next stage, with the counters behind it. -/
def advance (c : Counters) : Stage → Stage × Counters
  | fresh job =>
    if job.endOfStream then (summing c.groups, c)
    else (numbered c.groups job.context, { c with groups := c.groups + 1 })
  | numbered number group =>
    (calling (groupLine number group), { c with records := c.records + group.length })
  | summing groups => (calling (.totals groups c.records), c)
  | calling line => (calling line, c)
  | done => (done, c)

/-- The stage is one of the job. -/
def Fits (job : Job (List Record)) : Stage → Prop
  | fresh other => other = job
  | numbered _ _ => job.endOfStream = false
  | summing _ => job.endOfStream = true
  | calling line => line.isGroup = !job.endOfStream
  | done => True

/-- The group, if it has no number yet. -/
def unnumbered? : Stage → Option (List Record)
  | fresh job => if job.endOfStream then none else some job.context
  | _ => none

/-- The records that have still to be counted, of a group that has its number. -/
def uncounted : Stage → Nat
  | numbered _ group => group.length
  | _ => 0

/-- The line of a group that has its number, if it has still to be handed over. -/
def unsent? : Stage → Option Line
  | numbered number group => some (groupLine number group)
  | calling line => if line.isGroup then some line else none
  | _ => none

/-- Whether the totals have still to be handed over. -/
def sums : Stage → Nat
  | fresh job => job.endOfStream.toNat
  | summing _ => 1
  | calling line => (!line.isGroup).toNat
  | _ => 0

/-- What was read of the counters is what they say now. -/
def Current (c : Counters) : Stage → Prop
  | summing groups => groups = c.groups
  | calling (.totals groups records) => groups = c.groups ∧ records = c.records
  | _ => True

variable {c : Counters} {s : Stage} {job : Job (List Record)}
  {act : Counters → Task Counters Line × Counters}

/-- A step on the counters leads to the next stage. -/
theorem act_eq (h : s.task = .act act) : act c = ((s.advance c).1.task, (s.advance c).2) := by
  cases s with
  | fresh job =>
    cases last : job.endOfStream <;> simp [task, Ingest.task, last] at h <;> subst h <;>
      simp [advance, last, task]
  | numbered number group => cases h; rfl
  | summing groups => cases h; rfl
  | calling | done => cases h

/-- A worker that has a line for the writer is at the stage of that line. -/
theorem eq_calling_of_task {line : Line} (h : s.task = .call line) : s = .calling line := by
  cases s with
  | calling => exact congrArg _ (Task.call.inj h)
  | fresh job => cases last : job.endOfStream <;> simp [task, Ingest.task, last] at h
  | numbered | summing | done => cases h

/-- A worker that ends its job is done. -/
theorem eq_done_of_task {outcome : Outcome} (h : s.task = .stop outcome) : s = .done := by
  cases s with
  | done => rfl
  | fresh job => cases last : job.endOfStream <;> simp [task, Ingest.task, last] at h
  | numbered | summing | calling => cases h

theorem Fits.advance (h : s.Fits job) : (s.advance c).1.Fits job := by
  cases s with
  | fresh other =>
    obtain rfl : other = job := h
    cases last : other.endOfStream <;> simp [Stage.advance, last, Fits]
  | numbered number group =>
    have last : job.endOfStream = false := h
    simp [Stage.advance, Fits, Line.isGroup, groupLine, last]
  | summing groups =>
    have last : job.endOfStream = true := h
    simp [Stage.advance, Fits, Line.isGroup, last]
  | calling | done => exact h

/-- The counters only change for a group. -/
theorem advance_snd_eq (h : s.Fits job) (last : job.endOfStream = true) : (s.advance c).2 = c := by
  cases s with
  | fresh other =>
    obtain rfl : other = job := h
    simp [Stage.advance, last]
  | numbered =>
    rw [show job.endOfStream = false from h] at last
    cases last
  | summing | calling | done => rfl

/-- A stage that comes to no totals has read nothing of the counters. -/
theorem current_of_sums (h : s.sums = 0) : s.Current c := by
  cases s with
  | summing => cases h
  | calling line => cases line with
    | group => trivial
    | totals => cases h
  | _ => trivial

/-- The job of the totals reads what the counters say. -/
theorem Current.advance (h : s.Current c) (last : s.Fits job) (eos : job.endOfStream = true) :
    (s.advance c).1.Current c := by
  cases s with
  | fresh other =>
    obtain rfl : other = job := last
    simp [Stage.advance, eos, Current]
  | numbered =>
    rw [show job.endOfStream = false from last] at eos
    cases eos
  | summing groups => exact ⟨h, rfl⟩
  | calling | done => exact h

end Stage

/-! ## The balance -/

/-- The groups of jobs. -/
def groupsOf (jobs : List (Job (List Record))) : List (List Record) :=
  (jobs.filter fun job => !job.endOfStream).map (·.context)

/-- Nothing is lost between the jobs that were begun and the lines that were sent. `numbered` are the
groups in the order of their numbers. -/
structure Balance (c : Counters) (began : List (Job (List Record))) (sent : List Line)
    (numbered : List (List Record)) (stages : Multiset Stage) : Prop where
  groups_eq : c.groups = numbered.length
  begun : (numbered : Multiset (List Record)) + stages.filterMap Stage.unnumbered? = groupsOf began
  records_eq : c.records + (stages.map Stage.uncounted).sum = (numbered.map List.length).sum
  lines_eq : (sent.filter Line.isGroup : Multiset Line) + stages.filterMap Stage.unsent? =
    numbered.mapIdx groupLine
  sums_eq : sent.countP (fun line => !line.isGroup) + (stages.map Stage.sums).sum =
    began.countP (·.endOfStream)

variable {c : Counters} {began : List (Job (List Record))} {sent : List Line}
  {numbered : List (List Record)} {s : Stage} {rest : Multiset Stage}

/-- Of a stage only the groups, records and lines count that are still to come. -/
theorem Balance.congr {s' : Stage} (h : Balance c began sent numbered (s ::ₘ rest))
    (unnumbered : s'.unnumbered? = s.unnumbered?) (uncounted : s'.uncounted = s.uncounted)
    (unsent : s'.unsent? = s.unsent?) (sums : s'.sums = s.sums) :
    Balance c began sent numbered (s' ::ₘ rest) := by
  obtain ⟨count, begun, records, lines, totals⟩ := h
  simp only [Multiset.filterMap_cons, Multiset.map_cons] at begun records lines totals
  refine ⟨count, ?_, ?_, ?_, ?_⟩
  · rwa [Multiset.filterMap_cons, unnumbered]
  · rwa [Multiset.map_cons, uncounted]
  · rwa [Multiset.filterMap_cons, unsent]
  · rwa [Multiset.map_cons, sums]

/-- A group gets its number. -/
theorem Balance.number {job : Job (List Record)}
    (h : Balance c began sent numbered (.fresh job ::ₘ rest)) (group : job.endOfStream = false) :
    Balance { c with groups := c.groups + 1 } began sent (numbered ++ [job.context])
      (.numbered c.groups job.context ::ₘ rest) := by
  have new : (Stage.fresh job).unnumbered? = some job.context := by
    rw [Stage.unnumbered?, group]
    rfl
  have line : (Stage.numbered c.groups job.context).unsent? =
      some (groupLine c.groups job.context) := rfl
  obtain ⟨count, begun, records, lines, sums⟩ := h
  rw [Multiset.filterMap_cons_some _ _ _ new] at begun
  rw [Multiset.filterMap_cons_none _ _ rfl] at lines
  simp only [Multiset.map_cons, Multiset.sum_cons, Stage.uncounted, Stage.sums, group] at records sums
  refine ⟨by simp [count], ?_, ?_, ?_, by simpa [Stage.sums] using sums⟩
  · rw [Multiset.filterMap_cons_none _ _ rfl, ← begun, ← Multiset.coe_add, Multiset.coe_singleton,
      ← Multiset.singleton_add, add_assoc]
  · simp only [Multiset.map_cons, Multiset.sum_cons, Stage.uncounted, List.map_append,
      List.map_cons, List.map_nil, List.sum_append, List.sum_singleton]
    omega
  · rw [Multiset.filterMap_cons_some _ _ _ line, List.mapIdx_append, ← Multiset.coe_add, ← lines,
      count, ← Multiset.singleton_add]
    simp only [List.mapIdx_cons, List.mapIdx_nil, Nat.zero_add, Multiset.coe_singleton]
    abel

/-- The records of a group are counted, and its line is to be handed over. -/
theorem Balance.count {number : Nat} {group : List Record}
    (h : Balance c began sent numbered (.numbered number group ::ₘ rest)) :
    Balance { c with records := c.records + group.length } began sent numbered
      (.calling (groupLine number group) ::ₘ rest) := by
  obtain ⟨count, begun, records, lines, sums⟩ := h
  refine ⟨count, ?_, ?_, ?_, ?_⟩
  · simpa [Multiset.filterMap_cons, Stage.unnumbered?] using begun
  · simp only [Multiset.map_cons, Multiset.sum_cons, Stage.uncounted] at records ⊢
    omega
  · simpa [Multiset.filterMap_cons, Stage.unsent?, groupLine, Line.isGroup] using lines
  · simpa [Stage.sums, groupLine, Line.isGroup] using sums

/-- A stage is followed by the next one. -/
theorem Balance.advance (h : Balance c began sent numbered (s ::ₘ rest)) :
    Balance (s.advance c).2 began sent (numbered ++ s.unnumbered?.toList)
      ((s.advance c).1 ::ₘ rest) := by
  cases s with
  | fresh job =>
    cases last : job.endOfStream with
    | false =>
      have next := h.number last
      simpa [Stage.advance, Stage.unnumbered?, last] using next
    | true =>
      have next : Balance c began sent numbered (.summing c.groups ::ₘ rest) :=
        h.congr (by simp [Stage.unnumbered?, last]) rfl rfl (by simp [Stage.sums, last])
      simpa [Stage.advance, Stage.unnumbered?, last] using next
  | numbered number group =>
    simpa [Stage.advance, Stage.unnumbered?] using h.count
  | summing groups =>
    have next : Balance c began sent numbered (.calling (.totals groups c.records) ::ₘ rest) :=
      h.congr rfl rfl rfl rfl
    simpa [Stage.advance, Stage.unnumbered?] using next
  | calling | done => simpa [Stage.advance, Stage.unnumbered?] using h

/-- The writer is given the line of a worker. -/
theorem Balance.send {line : Line} (h : Balance c began sent numbered (.calling line ::ₘ rest)) :
    Balance c began (sent ++ [line]) numbered (.done ::ₘ rest) := by
  obtain ⟨count, begun, records, lines, sums⟩ := h
  refine ⟨count, ?_, ?_, ?_, ?_⟩
  · simpa [Multiset.filterMap_cons, Stage.unnumbered?] using begun
  · simpa [Stage.uncounted] using records
  · cases group : line.isGroup with
    | true =>
      have now : (Stage.calling line).unsent? = some line := by simp [Stage.unsent?, group]
      rw [Multiset.filterMap_cons_some _ _ _ now] at lines
      rw [Multiset.filterMap_cons_none _ _ rfl, ← lines, List.filter_append, ← Multiset.coe_add,
        ← Multiset.singleton_add, add_assoc]
      simp [group]
    | false =>
      rw [Multiset.filterMap_cons_none _ _ (by simp [Stage.unsent?, group])] at lines
      rw [Multiset.filterMap_cons_none _ _ rfl, ← lines]
      simp [group]
  · cases group : line.isGroup with
    | true => simpa [Stage.sums, group] using sums
    | false =>
      simp only [Multiset.map_cons, Multiset.sum_cons, Stage.sums, group, List.countP_append] at sums ⊢
      simp [group] at sums ⊢
      omega

/-- A worker is started on a job. -/
theorem Balance.begin {stages : Multiset Stage} (h : Balance c began sent numbered stages)
    (job : Job (List Record)) :
    Balance c (began ++ [job]) sent numbered (.fresh job ::ₘ stages) := by
  obtain ⟨count, begun, records, lines, sums⟩ := h
  refine ⟨count, ?_, by simpa [Stage.uncounted] using records, ?_, ?_⟩
  · cases last : job.endOfStream with
    | false =>
      have groups : groupsOf (began ++ [job]) = groupsOf began ++ [job.context] := by
        simp [groupsOf, last]
      have new : (Stage.fresh job).unnumbered? = some job.context := by
        simp [Stage.unnumbered?, last]
      rw [Multiset.filterMap_cons_some _ _ _ new, groups,
        ← Multiset.coe_add, ← begun, Multiset.coe_singleton, ← Multiset.singleton_add]
      abel
    | true =>
      have groups : groupsOf (began ++ [job]) = groupsOf began := by simp [groupsOf, last]
      rw [Multiset.filterMap_cons_none _ _ (by simp [Stage.unnumbered?, last]), groups, begun]
  · rwa [Multiset.filterMap_cons_none _ _ rfl]
  · have one : [job].countP (·.endOfStream) = (Stage.fresh job).sums := by
      cases last : job.endOfStream <;> simp [Stage.sums, last]
    rw [Multiset.map_cons, Multiset.sum_cons, List.countP_append, ← sums, one]
    omega

/-- A worker that is done ends. -/
theorem Balance.end (h : Balance c began sent numbered (.done ::ₘ rest)) :
    Balance c began sent numbered rest := by
  obtain ⟨count, begun, records, lines, sums⟩ := h
  rw [Multiset.filterMap_cons_none _ _ rfl] at begun lines
  rw [Multiset.map_cons, Multiset.sum_cons] at records sums
  exact ⟨count, begun, by simpa [Stage.uncounted] using records, lines,
    by simpa [Stage.sums] using sums⟩

end Ingest

end BatchPool
