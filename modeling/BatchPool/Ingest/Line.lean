import BatchPool.Flow.Basic
import BatchPool.Ingest.Tally
import BatchPool.Record

/-!
# The lines of an ingest run

* `Ingest.Line`: a group with its number, its size and its types, or the totals.
* `Ingest.Counters`: the groups and records that were counted so far.
* `Ingest.task`: what a worker does for a group: it counts the group, then its records, and hands its
  line to the writer. The job with the end-of-stream marker makes the totals.
* `Ingest.plan`: the work functions of the flow.
-/

namespace BatchPool

namespace Ingest

/-- A line of the output. -/
inductive Line where
  | group (number size : Nat) (types : Tally)
  | totals (groups records : Nat)
  deriving Repr, DecidableEq

/-- A line as text: the members of each object are in order. -/
def Line.text : Line → String
  | .group number size types =>
    (Json.obj [("group", .int number), ("size", .int size),
      ("types", .obj (types.map fun t => (t.1, .int t.2)))]).compact
  | .totals groups records =>
    (Json.obj [("groups", .int groups), ("records", .int records)]).compact

/-- The groups and records that were counted so far. -/
structure Counters where
  groups : Nat := 0
  records : Nat := 0
  deriving Repr, DecidableEq

/-- How many records of each type there are. -/
def types (group : List Record) : Tally := Tally.ofNames (group.map (·.typeName))

/-- What a worker does with a group, once the group has its number. -/
def groupTask (group : List Record) (number : Nat) : Task Counters Line :=
  .act fun c =>
    (.call (.group number group.length (types group)),
      { c with records := c.records + group.length })

/-- What a worker does for a job. Counting groups and counting records are two steps. -/
def task (job : Job (List Record)) : Task Counters Line :=
  if job.endOfStream then
    .act fun c => (.act fun d => (.call (.totals c.groups d.records), d), c)
  else
    .act fun c => (groupTask job.context c.groups, { c with groups := c.groups + 1 })

/-- The work functions. The writer takes every line, and reading ends at the first refusal. -/
def plan : Plan Record Counters Line where
  task _ := task
  write _ := .done
  strict := true

end Ingest

end BatchPool
