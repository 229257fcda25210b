import BatchPool.Proofs.Ingest.Stages
import Mathlib.Algebra.Order.BigOperators.Group.List
import Mathlib.Algebra.Order.Group.Nat

/-!
# The stages of all workers

* `Ingest.Assigned`: the workers at work are at the stages of a list, each at one.
* `Ingest.Tracked`: they keep the balance, and the totals are sent behind all groups, with what the
  counters say at the end. `Tracked.next`: every move of the work keeps this.
-/

namespace BatchPool

namespace Ingest

open BatchPool.Flow
open scoped List

/-- The stages of the workers but one. -/
def others (i : Nat) (stages : List (Nat × Stage)) : List (Nat × Stage) :=
  stages.filter fun x => x.1 ≠ i

/-- The workers are at the given stages. -/
structure Assigned (v : Work Record Counters Line) (stages : List (Nat × Stage)) : Prop where
  tasks : v.tasks = stages.map fun x => (x.1, x.2.task)
  keys : (stages.map (·.1)).Nodup
  fits : ∀ x ∈ stages, ∃ t, v.executing x.1 = some t ∧ x.2.Fits t.job

/-- What holds of the work, with the stages of the workers and the groups in the order of their
numbers. -/
structure Tracked (v : Work Record Counters Line) (stages : List (Nat × Stage))
    (numbered : List (List Record)) : Prop where
  assigned : Assigned v stages
  balance : Balance v.shared v.began v.sent numbered (stages.map (·.2) : List Stage)
  current : ∀ x ∈ stages, x.2.Current v.shared
  sorted : ∃ groups n,
    v.sent = groups ++ List.replicate n (.totals v.shared.groups v.shared.records) ∧
      ∀ line ∈ groups, line.isGroup = true

variable {v v' : Work Record Counters Line} {stages : List (Nat × Stage)}
  {numbered : List (List Record)} {i : Nat} {s : Stage}

/-! ## Stages of single workers -/

theorem others_eq_self (absent : i ∉ stages.map (·.1)) : others i stages = stages := by
  refine List.filter_eq_self.2 fun x hx => ?_
  have : x.1 ≠ i := fun same => absent (same ▸ List.mem_map_of_mem hx)
  simpa using this

/-- A worker with a task is at a stage. -/
theorem exists_of_lookup {task : Task Counters Line} (keys : (stages.map (·.1)).Nodup)
    (h : (stages.map fun x => (x.1, x.2.task)).lookup i = some task) :
    ∃ s, s.task = task ∧ stages ~ (i, s) :: others i stages := by
  induction stages with
  | nil => cases h
  | cons x rest ih =>
    obtain ⟨j, s⟩ := x
    simp only [List.map_cons, List.nodup_cons] at keys
    by_cases same : i = j
    · subst same
      rw [List.map_cons, List.lookup_cons_self] at h
      cases h
      have rest_eq := others_eq_self keys.1
      refine ⟨s, rfl, ?_⟩
      rw [others, List.filter_cons_of_neg (by simp)]
      exact .of_eq (congrArg _ rest_eq.symm)
    · have ne : (i == j) = false := by simpa using same
      rw [List.map_cons, List.lookup_cons, ne] at h
      obtain ⟨s', task, all⟩ := ih keys.2 h
      refine ⟨s', task, ?_⟩
      rw [others, List.filter_cons_of_pos (by simpa using Ne.symm same)]
      exact (all.cons (j, s)).trans (.swap _ _ _)

/-- A worker goes to a stage, and the others stay where they are. -/
theorem Assigned.set (h : Assigned v stages) {t : Ticket (Job (List Record))}
    (tasks : v'.tasks = (v.setTask i s.task).tasks) (here : v'.executing i = some t)
    (same : ∀ j, j ≠ i → v'.executing j = v.executing j) (fits : s.Fits t.job) :
    Assigned v' ((i, s) :: others i stages) where
  tasks := by
    rw [tasks, Work.setTask, h.tasks, List.filter_map]
    rfl
  keys := by
    rw [List.map_cons, List.nodup_cons]
    exact ⟨by simp [others], h.keys.sublist (List.filter_sublist.map _)⟩
  fits := by
    intro x hx
    obtain rfl | old := List.mem_cons.1 hx
    · exact ⟨t, here, fits⟩
    · obtain ⟨mem, other⟩ := List.mem_filter.1 old
      rw [same x.1 (of_decide_eq_true other)]
      exact h.fits x mem

/-- A worker ends, and the others stay where they are. -/
theorem Assigned.erase (h : Assigned v stages) (tasks : v'.tasks = (v.endTask i).tasks)
    (same : ∀ j, j ≠ i → v'.executing j = v.executing j) : Assigned v' (others i stages) where
  tasks := by
    rw [tasks, Work.endTask, h.tasks, List.filter_map]
    rfl
  keys := h.keys.sublist (List.filter_sublist.map _)
  fits := by
    intro x hx
    obtain ⟨mem, other⟩ := List.mem_filter.1 hx
    rw [same x.1 (of_decide_eq_true other)]
    exact h.fits x mem

/-- A worker that is not at work is at no stage. -/
theorem Assigned.absent (h : Assigned v stages) (free : v.executing i = none) :
    i ∉ stages.map (·.1) := by
  intro mem
  obtain ⟨x, hx, rfl⟩ := List.mem_map.1 mem
  obtain ⟨t, here, -⟩ := h.fits x hx
  rw [free] at here
  cases here

/-- A worker with a task is at work, at a stage of its job; the balance counts the stage. -/
theorem Tracked.find (h : Tracked v stages numbered) {task : Task Counters Line}
    (here : v.tasks.lookup i = some task) :
    ∃ s t, s.task = task ∧ v.executing i = some t ∧ s.Fits t.job ∧ s.Current v.shared ∧
      Balance v.shared v.began v.sent numbered
        (s ::ₘ ((others i stages).map (·.2) : List Stage)) := by
  rw [h.assigned.tasks] at here
  obtain ⟨s, task, all⟩ := exists_of_lookup h.assigned.keys here
  have mem : (i, s) ∈ stages := all.mem_iff.2 List.mem_cons_self
  obtain ⟨t, executing, fits⟩ := h.assigned.fits _ mem
  refine ⟨s, t, task, executing, fits, h.current _ mem, ?_⟩
  have same := Multiset.coe_eq_coe.2 (all.map (·.2))
  rw [List.map_cons, ← Multiset.cons_coe] at same
  exact same ▸ h.balance

/-! ## Moves -/

/-- As long as no last job has begun, nothing was read of the counters. -/
theorem Tracked.of_groups (assigned : Assigned v stages)
    (balance : Balance v.shared v.began v.sent numbered (stages.map (·.2) : List Stage))
    (groups : ∀ job ∈ v.began, job.endOfStream = false) : Tracked v stages numbered := by
  have sums := balance.sums_eq
  have last : v.began.countP (·.endOfStream) = 0 := by
    refine List.countP_eq_zero.2 fun job hjob => ?_
    simp [groups job hjob]
  rw [last, Nat.add_eq_zero_iff, List.countP_eq_zero, Multiset.map_coe, Multiset.sum_coe,
    List.sum_eq_zero_iff] at sums
  refine ⟨assigned, balance, fun x hx => Stage.current_of_sums ?_, v.sent, 0, by simp, ?_⟩
  · exact sums.2 _ (List.mem_map_of_mem (List.mem_map_of_mem hx))
  · intro line hline
    simpa using sums.1 line hline

/-- No last job has begun while a worker is at work on a group. -/
def Apart (v : Work Record Counters Line) : Prop :=
  ∀ i t, v.executing i = some t → t.job.endOfStream = false →
    ∀ job ∈ v.began, job.endOfStream = false

/-- A worker does a step on the counters. -/
theorem Tracked.act {act : Counters → Task Counters Line × Counters} (h : Tracked v stages numbered)
    (apart : Apart v) (task : v.tasks.lookup i = some (.act act)) :
    ∃ stages' numbered', Tracked
      ({ v with shared := (act v.shared).2 }.setTask i (act v.shared).1) stages' numbered' := by
  obtain ⟨s, t, mine, here, fits, current, balance⟩ := h.find task
  rw [Stage.act_eq mine]
  have assigned : Assigned
      ({ v with shared := (s.advance v.shared).2 }.setTask i (s.advance v.shared).1.task)
      ((i, (s.advance v.shared).1) :: others i stages) :=
    h.assigned.set rfl here (fun _ _ => rfl) fits.advance
  refine ⟨(i, (s.advance v.shared).1) :: others i stages, numbered ++ s.unnumbered?.toList, ?_⟩
  cases last : t.job.endOfStream with
  | false => exact .of_groups assigned balance.advance (apart i t here last)
  | true =>
    have same := Stage.advance_snd_eq (c := v.shared) fits last
    refine ⟨assigned, balance.advance, fun x hx => ?_, ?_⟩
    · show x.2.Current (s.advance v.shared).2
      rw [same]
      obtain rfl | old := List.mem_cons.1 hx
      · exact current.advance fits last
      · exact h.current x (List.mem_filter.1 old).1
    · show ∃ groups n, v.sent = groups ++
        List.replicate n (.totals (s.advance v.shared).2.groups (s.advance v.shared).2.records) ∧ _
      rw [same]
      exact h.sorted

/-- The writer is given the line of a worker. -/
theorem Tracked.send {line : Line} (h : Tracked v stages numbered) (apart : Apart v)
    (task : v.tasks.lookup i = some (.call line)) :
    ∃ stages', Tracked ({ v with sent := v.sent ++ [line] }.setTask i (.stop .done)) stages'
      numbered := by
  obtain ⟨s, t, mine, here, fits, current, balance⟩ := h.find task
  obtain rfl := Stage.eq_calling_of_task mine
  have assigned : Assigned ({ v with sent := v.sent ++ [line] }.setTask i (.stop .done))
      ((i, .done) :: others i stages) :=
    h.assigned.set rfl here (fun _ _ => rfl) trivial
  refine ⟨(i, .done) :: others i stages, ?_⟩
  cases last : t.job.endOfStream with
  | false => exact .of_groups assigned balance.send (apart i t here last)
  | true =>
    refine ⟨assigned, balance.send, fun x hx => ?_, ?_⟩
    · obtain rfl | old := List.mem_cons.1 hx
      · trivial
      · exact h.current x (List.mem_filter.1 old).1
    · obtain ⟨groups, n, sent, all⟩ := h.sorted
      cases line with
      | group => simp [Stage.Fits, Line.isGroup, last] at fits
      | totals =>
        obtain ⟨rfl, rfl⟩ := current
        refine ⟨groups, n + 1, ?_, all⟩
        show v.sent ++ [_] = _
        rw [sent, List.replicate_succ', List.append_assoc]
        rfl

/-- **Every move of the work keeps it tracked.** -/
theorem Tracked.next (h : Tracked v stages numbered) (apart : Apart v)
    (hm : Work.Moves plan v v') : ∃ stages' numbered', Tracked v' stages' numbered' := by
  cases hm with
  | still => exact ⟨stages, numbered, h⟩
  | act task => exact h.act apart task
  | send task =>
    obtain ⟨stages', next⟩ := h.send apart task
    exact ⟨stages', numbered, next⟩
  | @conclude i outcome task =>
    obtain ⟨s, t, mine, here, -, -, balance⟩ := h.find task
    have assigned : Assigned
        ({ v with executing := Function.update v.executing i none }.endTask i) (others i stages) :=
      h.assigned.erase rfl fun j other => Function.update_of_ne other ..
    obtain rfl := Stage.eq_done_of_task mine
    exact ⟨_, numbered, assigned, balance.end,
      fun x hx => h.current x (List.mem_filter.1 hx).1, h.sorted⟩
  | @receive i t free =>
    have assigned : Assigned
        ({ v with
          executing := Function.update v.executing i (some t)
          began := v.began ++ [t.job] }.setTask i (plan.task i t.job))
        ((i, .fresh t.job) :: others i stages) :=
      h.assigned.set rfl (Function.update_self ..) (fun j other => Function.update_of_ne other ..) rfl
    rw [others_eq_self (h.assigned.absent free)] at assigned
    refine ⟨_, numbered, assigned, h.balance.begin t.job, fun x hx => ?_, h.sorted⟩
    obtain rfl | old := List.mem_cons.1 hx
    · trivial
    · exact h.current x old

end Ingest

end BatchPool
