import BatchPool.Proofs.Flow.Staged
import BatchPool.Proofs.Ingest.Reading
import BatchPool.Proofs.Ingest.Tracked

/-!
# What an ingest run writes

* `Ingest.Summary`: a line for each part of the records, and then the totals.
* `Tracked.summary`: so it is when all parts were begun and nobody is at work any more, but for the
  totals, which are `missing` if the input is not complete.
-/

namespace BatchPool

namespace Ingest

open BatchPool.Flow
open scoped List

/-- What is to be written for records in parts of the given size: the groups, each with its number, its
size and its types, and then the totals. -/
structure Summary (size : Nat) (records : List Record) (groups : List (Nat × Nat × Tally))
    (lines : List Line) : Prop where
  /-- There is a line for each group, and one line behind them. -/
  lines_eq : lines = groups.map (fun g => .group g.1 g.2.1 g.2.2) ++
    [.totals groups.length records.length]
  /-- There are as many groups as parts. -/
  length_eq : groups.length = (records.length + size - 1) / size
  /-- The groups are numbered from zero, in whatever order they were written. -/
  numbers : groups.map (·.1) ~ List.range groups.length
  /-- They have the sizes and the types of the parts. -/
  parts : groups.map (·.2) ~ (Batch.chunks size records).map fun part => (part.length, types part)
  /-- A type of a part stands there once, with the number of its records in the part. -/
  ordered : ∀ g ∈ groups, g.2.2.Ordered
  counts : ∀ part ∈ Batch.chunks size records, ∀ name n,
    (name, n) ∈ types part ↔ 0 < n ∧ n = (part.map (·.typeName)).count name
  /-- The counts of a line add up to its size. -/
  sizes : ∀ g ∈ groups, g.2.2.total = g.2.1
  /-- The counts of a type in all lines are the number of its records. -/
  sums : ∀ name, (groups.map fun g => g.2.2.count name).sum =
    (records.map (·.typeName)).count name

/-! ## The lines of groups -/

/-- The number, the size and the types of a group's line. -/
def Line.fields? : Line → Option (Nat × Nat × Tally)
  | .group number size types => some (number, size, types)
  | .totals _ _ => none

theorem map_fields? {lines : List Line} (groups : ∀ line ∈ lines, line.isGroup = true) :
    (lines.filterMap Line.fields?).map (fun g => .group g.1 g.2.1 g.2.2) = lines := by
  induction lines with
  | nil => rfl
  | cons line rest ih =>
    obtain ⟨here, later⟩ := List.forall_mem_cons.1 groups
    cases line with
    | group number size types =>
      have fields : (Line.group number size types).fields? = some (number, size, types) := rfl
      rw [List.filterMap_cons_some fields, List.map_cons, ih later]
    | totals => cases here

theorem filterMap_groupLine (groups : List (List Record)) :
    (groups.mapIdx groupLine).filterMap Line.fields? =
      groups.mapIdx fun number group => (number, group.length, types group) := by
  rw [List.mapIdx_eq_zipIdx_map, List.mapIdx_eq_zipIdx_map, List.filterMap_map,
    ← List.filterMap_eq_map]
  rfl

/-! ## The parts -/

/-- The counts of a type in all parts are the number of its records. -/
theorem sum_count_chunks {size : Nat} (pos : 0 < size) (records : List Record) (name : String) :
    ((Batch.chunks size records).map fun part => (types part).count name).sum =
      (records.map (·.typeName)).count name := by
  conv_rhs => rw [← Batch.flatten_chunks pos records]
  simp only [types, Tally.count_ofNames]
  rw [List.map_flatten, List.count_flatten, List.map_map]
  rfl

/-- The lines of the parts, numbered in any order, and then the totals, are a summary. -/
theorem Summary.of_perm {size : Nat} (pos : 0 < size) {records : List Record}
    {numbered : List (List Record)} (parts : numbered ~ Batch.chunks size records)
    {groups : List (Nat × Nat × Tally)}
    (fields : groups ~ numbered.mapIdx fun number part => (number, part.length, types part)) :
    Summary size records groups (groups.map (fun g => .group g.1 g.2.1 g.2.2) ++
      [.totals groups.length records.length]) := by
  have length : groups.length = numbered.length := by simpa using fields.length_eq
  have numbers : groups.map (·.1) ~ List.range numbered.length := by
    refine (fields.map (·.1)).trans (.of_eq ?_)
    exact List.ext_getElem (by simp) (by simp)
  have pairs : groups.map (·.2) ~
      (Batch.chunks size records).map fun part => (part.length, types part) := by
    refine (fields.map (·.2)).trans (.trans (.of_eq ?_) (parts.map _))
    exact List.ext_getElem (by simp) (by simp)
  have of_part : ∀ g ∈ groups, ∃ part, g.2 = (part.length, types part) := by
    intro g hg
    have mem := pairs.mem_iff.1 (List.mem_map_of_mem (f := (·.2)) hg)
    obtain ⟨part, -, same⟩ := List.mem_map.1 mem
    exact ⟨part, same.symm⟩
  exact {
    lines_eq := rfl
    length_eq := by rw [length, parts.length_eq, Batch.length_chunks]
    numbers := length ▸ numbers
    parts := pairs
    ordered := fun g hg => by
      obtain ⟨part, same⟩ := of_part g hg
      rw [same]
      exact Tally.ordered_ofNames _
    counts := fun part _ name n => Tally.mem_ofNames
    sizes := fun g hg => by
      obtain ⟨part, same⟩ := of_part g hg
      simp [same, types]
    sums := fun name => by
      rw [← sum_count_chunks pos records]
      have sums := (pairs.map fun g : Nat × Tally => g.2.count name).sum_eq
      simpa [Function.comp_def] using sums }

/-! ## What was sent -/

/-- The groups of the jobs of an input, and how many jobs make the totals. -/
theorem groupsOf_perm {jobs : List (Job (List Record))} {parts : List (List Record)}
    {complete : Bool} (h : jobs ~ parts.map .ofContext ++ (if complete then [.last []] else [])) :
    groupsOf jobs ~ parts ∧ jobs.countP (·.endOfStream) = complete.toNat := by
  constructor
  · have all := (h.filter fun job => !job.endOfStream).map (·.context)
    cases complete <;>
      simpa [groupsOf, Job.ofContext, Job.last, List.filter_map, Function.comp_def] using all
  · rw [h.countP_eq]
    cases complete <;> simp [Job.ofContext, Job.last, List.countP_map, Function.comp_def]

variable {v : Work Record Counters Line} {stages : List (Nat × Stage)}
  {numbered : List (List Record)}

/-- Where nobody is at work no worker is at a stage. -/
theorem Tracked.stages_eq_nil (h : Tracked v stages numbered) (idle : ∀ i, v.executing i = none) :
    stages = [] := by
  refine List.eq_nil_iff_forall_not_mem.2 fun x hx => ?_
  exact h.assigned.absent (idle x.1) (List.mem_map_of_mem hx)

/-- The totals that are not written because the input is not complete. -/
def missing (complete : Bool) (groups : List (Nat × Nat × Tally)) (records : List Record) :
    List Line :=
  if complete then [] else [.totals groups.length records.length]

/-- **When all parts were begun, and the last job if the input is complete, and nobody is at work, the
lines that were sent are a summary, but for the totals of an input that is not complete.** -/
theorem Tracked.summary (h : Tracked v stages numbered) (idle : ∀ i, v.executing i = none)
    {size : Nat} (pos : 0 < size) {records : List Record} {complete : Bool}
    (began : v.began ~ (Batch.chunks size records).map .ofContext ++
      (if complete then [.last []] else [])) :
    ∃ groups, Summary size records groups (v.sent ++ missing complete groups records) := by
  obtain rfl := h.stages_eq_nil idle
  obtain ⟨jobs, one⟩ := groupsOf_perm began
  have balance := h.balance
  have parts : numbered ~ Batch.chunks size records :=
    .trans (by simpa using balance.begun) jobs
  have counted : v.shared.records = records.length := by
    have all : v.shared.records = (numbered.map List.length).sum := by
      simpa using balance.records_eq
    rw [all, (parts.map List.length).sum_eq, ← List.length_flatten, Batch.flatten_chunks pos]
  obtain ⟨lines, n, sent, groups⟩ := h.sorted
  obtain rfl : n = complete.toNat := by
    have none : lines.countP (fun line => !line.isGroup) = 0 :=
      List.countP_eq_zero.2 fun line hline => by simp [groups line hline]
    have count := balance.sums_eq
    rw [one, sent, List.countP_append, none, Nat.zero_add,
      List.countP_eq_length.2 (by simp [Line.isGroup]), List.length_replicate] at count
    simpa using count
  have sorted : lines ~ numbered.mapIdx groupLine := by
    have count := balance.lines_eq
    rw [sent, List.filter_append, List.filter_eq_self.2 groups] at count
    simpa [Line.isGroup] using count
  have fields := filterMap_groupLine numbered ▸ sorted.filterMap Line.fields?
  have length : (lines.filterMap Line.fields?).length = v.shared.groups := by
    rw [balance.groups_eq]
    simpa using fields.length_eq
  refine ⟨lines.filterMap Line.fields?, ?_⟩
  have summary := Summary.of_perm pos parts fields
  rw [map_fields? groups] at summary
  have all : v.sent ++ missing complete (lines.filterMap Line.fields?) records =
      lines ++ [.totals (lines.filterMap Line.fields?).length records.length] := by
    rw [sent, ← length, counted]
    cases complete <;> simp [missing]
  exact all ▸ summary

end Ingest

end BatchPool
