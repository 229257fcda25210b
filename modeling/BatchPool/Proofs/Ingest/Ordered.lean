import BatchPool.Proofs.Flow.Queued
import BatchPool.Proofs.Ingest.Malformed

/-!
# One worker writes the groups in order

A single worker takes the groups one after another, and hands the line of a group to the writer before
it takes the next one. So its lines are those of an interpreter that does the jobs one by one, and the
output only depends on the input and on the size of the groups.

* `Ingest.linesOf`, `Ingest.countersOf`: what the interpreter writes for jobs, and how it counts.
* `Ingest.InLine`: the worker stands to the interpreter by its stage. `InLine.next`: every move of the
  work keeps this.
* `Ingest.report`: the lines for records in groups of a given size.
* `Ingest.Reported`: what follows when the reading thread has returned.
* `Ingest.writesReport`: so it is in whatever order the threads move.
-/

namespace BatchPool

namespace Ingest

open BatchPool.Flow
open scoped List

/-! ## The interpreter -/

/-- The counters when a job is done that nobody else interferes with. -/
def Counters.after (c : Counters) (job : Job (List Record)) : Counters :=
  if job.endOfStream then c
  else { groups := c.groups + 1, records := c.records + job.context.length }

/-- The line of such a job. -/
def Counters.line (c : Counters) (job : Job (List Record)) : Line :=
  if job.endOfStream then .totals c.groups c.records else groupLine c.groups job.context

/-- The counters when jobs were done one after another. -/
def countersOf (c : Counters) (jobs : List (Job (List Record))) : Counters :=
  jobs.foldl Counters.after c

/-- The lines of these jobs. -/
def linesOf (c : Counters) : List (Job (List Record)) → List Line
  | [] => []
  | job :: rest => c.line job :: linesOf (c.after job) rest

variable {c : Counters} {jobs more : List (Job (List Record))} {job : Job (List Record)}

theorem countersOf_concat : countersOf c (jobs ++ [job]) = (countersOf c jobs).after job :=
  List.foldl_concat ..

theorem linesOf_append :
    linesOf c (jobs ++ more) = linesOf c jobs ++ linesOf (countersOf c jobs) more := by
  induction jobs generalizing c with
  | nil => rfl
  | cons job rest ih => exact congrArg _ ih

theorem linesOf_concat :
    linesOf c (jobs ++ [job]) = linesOf c jobs ++ [(countersOf c jobs).line job] :=
  linesOf_append

/-- Groups are counted, and their records. -/
theorem countersOf_groups (parts : List (List Record)) :
    countersOf c (parts.map .ofContext) =
      { groups := c.groups + parts.length, records := c.records + parts.flatten.length } := by
  induction parts generalizing c with
  | nil => rfl
  | cons part rest ih =>
    have here : c.after (.ofContext part) =
        { groups := c.groups + 1, records := c.records + part.length } := rfl
    rw [List.map_cons, countersOf, List.foldl_cons, ← countersOf, ih, here]
    simp only [List.length_cons, List.flatten_cons, List.length_append, Counters.mk.injEq]
    omega

/-- Each of them has its line, in their order. -/
theorem linesOf_groups (parts : List (List Record)) :
    linesOf c (parts.map .ofContext) =
      parts.mapIdx fun number part => groupLine (c.groups + number) part := by
  induction parts generalizing c with
  | nil => rfl
  | cons part rest ih =>
    have here : c.after (.ofContext part) =
        { groups := c.groups + 1, records := c.records + part.length } := rfl
    rw [List.map_cons, linesOf, ih, here, List.mapIdx_cons]
    simp only [Nat.add_assoc, Nat.add_comm 1, Nat.add_zero]
    rfl

/-! ## The stage of the worker -/

/-- The counters and the lines that are still to come when the worker goes on from a stage alone. -/
def Stage.finish (c : Counters) : Stage → Counters × List Line
  | fresh job => (c.after job, [c.line job])
  | numbered number group =>
    ({ c with records := c.records + group.length }, [groupLine number group])
  | summing groups => (c, [.totals groups c.records])
  | calling line => (c, [line])
  | done => (c, [])

/-- A step on the counters does not change what it comes to. -/
theorem Stage.finish_advance (s : Stage) :
    (s.advance c).1.finish (s.advance c).2 = s.finish c := by
  cases s with
  | fresh job =>
    cases last : job.endOfStream <;>
      simp [Stage.advance, Stage.finish, Counters.after, Counters.line, last]
  | numbered | summing | calling | done => rfl

variable {v v' : Work Record Counters Line} {stage : Option Stage} {i : Nat}

/-- Only worker 0 is at work, if any: it stands to the interpreter by its stage. -/
structure InLine (v : Work Record Counters Line) (stage : Option Stage) : Prop where
  assigned : Assigned v (stage.toList.map fun s => (0, s))
  counted : (stage.elim v.shared fun s => (s.finish v.shared).1) = countersOf {} v.began
  sent : v.sent ++ (stage.elim [] fun s => (s.finish v.shared).2) = linesOf {} v.began

/-- A worker with a task is the one that is at the stage. -/
theorem InLine.find (h : InLine v stage) {task : Task Counters Line}
    (here : v.tasks.lookup i = some task) : ∃ s, stage = some s ∧ i = 0 ∧ s.task = task := by
  rw [h.assigned.tasks] at here
  cases stage with
  | none => cases here
  | some s =>
    have one : (([(0, s)] : List (Nat × Stage)).map (·.1)).Nodup := by simp
    obtain ⟨s', mine, all⟩ := exists_of_lookup one here
    obtain ⟨same, -⟩ := List.cons.inj (List.singleton_perm.1 all)
    cases same
    exact ⟨s, rfl, rfl, mine⟩

/-- When it is not at work it is at no stage. -/
theorem InLine.eq_none (h : InLine v stage) (free : v.executing 0 = none) : stage = none := by
  have absent := h.assigned.absent free
  cases stage with
  | none => rfl
  | some s => simp at absent

/-- The worker goes to another stage of its job. -/
theorem InLine.set {s s' : Stage} (h : InLine v (some s))
    (tasks : v'.tasks = (v.setTask 0 s'.task).tasks)
    (executing : v'.executing = v.executing) (fits : ∀ job, s.Fits job → s'.Fits job)
    (began : v'.began = v.began) (counted : (s'.finish v'.shared).1 = (s.finish v.shared).1)
    (sent : v'.sent ++ (s'.finish v'.shared).2 = v.sent ++ (s.finish v.shared).2) :
    InLine v' (some s') where
  assigned := by
    obtain ⟨t, here, old⟩ := h.assigned.fits (0, s) (by simp)
    exact h.assigned.set tasks (executing ▸ here) (fun _ _ => by rw [executing]) (fits t.job old)
  counted := by
    rw [began]
    exact counted.trans h.counted
  sent := by
    rw [began]
    exact sent.trans h.sent

/-- **Every move of the work keeps the worker in line**, if no other takes a job. -/
theorem InLine.next (h : InLine v stage) (alone : ∀ i t, v'.executing i = some t → i = 0)
    (hm : Work.Moves plan v v') : ∃ stage', InLine v' stage' := by
  cases hm with
  | still => exact ⟨stage, h⟩
  | act task =>
    obtain ⟨s, rfl, rfl, mine⟩ := h.find task
    rw [Stage.act_eq mine]
    have same := s.finish_advance (c := v.shared)
    exact ⟨_, h.set rfl rfl (fun _ => Stage.Fits.advance) rfl (congrArg Prod.fst same)
      (congrArg (v.sent ++ ·.2) same)⟩
  | send task =>
    obtain ⟨s, rfl, rfl, mine⟩ := h.find task
    obtain rfl := Stage.eq_calling_of_task mine
    exact ⟨some .done, h.set rfl rfl (fun _ _ => trivial) rfl rfl (List.append_nil _)⟩
  | conclude task =>
    obtain ⟨s, rfl, rfl, mine⟩ := h.find task
    obtain rfl := Stage.eq_done_of_task mine
    have assigned : Assigned
        ({ v with executing := Function.update v.executing 0 none }.endTask 0)
        (others 0 [(0, .done)]) :=
      h.assigned.erase rfl fun j other => Function.update_of_ne other ..
    exact ⟨none, assigned, h.counted, h.sent⟩
  | @receive i t free =>
    obtain rfl := alone i t (Function.update_self ..)
    obtain rfl := h.eq_none free
    have counted : v.shared = countersOf {} v.began := h.counted
    have sent : v.sent = linesOf {} v.began := (List.append_nil _).symm.trans h.sent
    have empty : Assigned v [] := h.assigned
    have here : Function.update v.executing 0 (some t) 0 = some t := Function.update_self ..
    have assigned : Assigned
        ({ v with
          executing := Function.update v.executing 0 (some t)
          began := v.began ++ [t.job] }.setTask 0 (plan.task 0 t.job))
        ((0, .fresh t.job) :: others 0 []) :=
      empty.set rfl here (fun j other => Function.update_of_ne other ..) rfl
    refine ⟨some (.fresh t.job), assigned, ?_, ?_⟩
    · exact (congrArg (Counters.after · t.job) counted).trans countersOf_concat.symm
    · show v.sent ++ [v.shared.line t.job] = linesOf {} (v.began ++ [t.job])
      rw [linesOf_concat, sent, counted]

/-! ## The flow -/

variable {batchSize : Nat} {p : Pool (Job (List Record))} {w : Pool (Job Line)}
  {records : List Record} {f g : Flow Record Counters Line} {actors : List Actor} {actor : Actor}

/-- What holds of an ingest run of one worker over complete input. -/
structure Ordered (batchSize : Nat) (p : Pool (Job (List Record))) (w : Pool (Job Line))
    (records : List Record) (f : Flow Record Counters Line) : Prop where
  steered : Steered batchSize p w records true f
  queued : f.Queued
  inLine : ∃ stage, InLine f.work stage

/-- A pool of one worker has no other that could be at work. -/
theorem Steered.executing_zero {complete : Bool} (h : Steered batchSize p w records complete f)
    (one : p.workerCount = 1) {i : Nat} {t : Ticket (Job (List Record))}
    (executing : f.work.executing i = some t) : i = 0 := by
  obtain ⟨phase, staged⟩ := h.staged
  obtain ⟨steps, hs, -⟩ := staged.feed.steered.run
  have count : f.feed.play.pool.workerCount = 1 := (Pool.Play.workerCount_eq hs).trans one
  have less : i < f.feed.play.pool.workerCount := by
    by_contra beyond
    have absent := List.getElem?_eq_none (Nat.not_lt.1 beyond)
    simp [work, Feed.pool, Pool.executing?, absent] at executing
  omega

/-- **The steps of an ingest run of one worker keep the order.** -/
theorem Ordered.next (h : Ordered batchSize p w records f) (prepared : Prepared p w)
    (one : p.workerCount = 1) (hm : Flow.Moves plan f actor g) :
    Ordered batchSize p w records g := by
  have steered := h.steered.next prepared hm
  obtain ⟨phase, staged⟩ := h.steered.staged
  obtain ⟨-, -, moved⟩ := staged.next prepared.pool (fun _ => rfl) hm
  obtain ⟨stage, inLine⟩ := h.inLine
  exact ⟨steered, staged.queued_next hm h.queued,
    inLine.next (fun i t executing => steered.executing_zero one executing) moved⟩

theorem Ordered.of_run (prepared : Prepared p w) (one : p.workerCount = 1)
    (h : (fresh batchSize p w {} (commands records true)).run? plan actors = some f) :
    Ordered batchSize p w records f := by
  refine run_induction (motive := Ordered batchSize p w records) ⟨.start prepared, ?_, none, ?_⟩
    (fun _ _ _ ordered hm => ordered.next prepared one hm) h
  · rw [commands_eq]
    exact .start prepared.pool _
  · rw [work_fresh prepared.pool]
    exact ⟨⟨rfl, List.nodup_nil, by simp⟩, rfl, rfl⟩

/-! ## The report -/

/-- The lines for records in groups of a given size. -/
def report (size : Nat) (records : List Record) : List Line :=
  (Batch.chunks size records).mapIdx groupLine ++
    [.totals (Batch.chunks size records).length records.length]

/-- These are the lines of the interpreter. -/
theorem linesOf_chunks {size : Nat} (pos : 0 < size) :
    linesOf {} ((Batch.chunks size records).map .ofContext ++ [.last []]) = report size records := by
  rw [linesOf_concat, linesOf_groups, countersOf_groups, Batch.flatten_chunks pos]
  simp [report, Counters.line, Job.last]

/-- When the reading thread has returned, the lines are the report. -/
theorem Ordered.lines_eq (h : Ordered batchSize p w records f) (prepared : Prepared p w)
    (one : p.workerCount = 1) (returned : f.Returned) :
    f.lines = report (effectiveSize batchSize) records := by
  obtain ⟨phase, staged⟩ := h.steered.staged
  have began := staged.began_eq prepared.pool prepared.writer one h.queued returned
  obtain ⟨-, lines, idle⟩ :=
    staged.of_returned prepared.pool prepared.writer prepared.single returned
  obtain ⟨stage, inLine⟩ := h.inLine
  obtain rfl := inLine.eq_none (idle 0)
  have sent : f.work.sent = linesOf {} f.work.began := (List.append_nil _).symm.trans inLine.sent
  rw [lines, sent, began, linesOf_chunks (effectiveSize_pos batchSize)]

/-- What stands in which line, for records in groups of a given size. -/
structure InOrder (size : Nat) (records : List Record) (lines : List Line) : Prop where
  /-- There is a line for each group, and one behind them. -/
  length_eq : lines.length = (records.length + size - 1) / size + 1
  /-- The line of each group stands at its number, with the size and the types of its part. -/
  group : ∀ i < (records.length + size - 1) / size,
    lines[i]? = some (.group i ((records.drop (i * size)).take size).length
      (types ((records.drop (i * size)).take size)))
  /-- A type of a part stands there once, with the number of its records in the part. -/
  counts : ∀ i name n, (name, n) ∈ types ((records.drop (i * size)).take size) ↔
    0 < n ∧ n = (((records.drop (i * size)).take size).map (·.typeName)).count name
  /-- The types of a part stand in order. -/
  sorted : ∀ i, (types ((records.drop (i * size)).take size)).Pairwise fun a b => a.1 < b.1
  /-- The totals stand behind the groups. -/
  totals : lines[(records.length + size - 1) / size]? =
    some (.totals ((records.length + size - 1) / size) records.length)

theorem inOrder_report (size : Nat) (records : List Record) :
    InOrder size records (report size records) where
  length_eq := by simp [report]
  group i less := by
    have part : (Batch.chunks size records)[i]? = some ((records.drop (i * size)).take size) := by
      simp [Batch.chunks, less]
    rw [report, List.getElem?_append_left (by simpa using less), List.getElem?_mapIdx, part]
    rfl
  counts i name n := Tally.mem_ofNames
  sorted i := (Tally.ordered_ofNames _).sorted
  totals := by simp [report]

/-! ## Runs -/

/-- What a run of one worker over input with these tokens comes to when the reading thread has
returned. -/
structure Reported (size : Nat) (tokens : List Json) (f : Flow Record Counters Line) : Prop where
  /-- The lines are a function of the tokens and the size of the groups. -/
  lines : f.lines = report size (tokens.flatMap Record.ofToken)
  /-- Each group has its line, in their order. -/
  inOrder : InOrder size (tokens.flatMap Record.ofToken) f.lines
  /-- Any other run of one worker over input with just these tokens, in groups of that size, writes the
  same lines, however large its queues are and however its threads have moved. -/
  same : ∀ {c : IngestConfig} {processors : Nat} {other : Reader} {s g actors},
    other.stream.Yields tokens → c.pool.workers processors = 1 → effectiveSize c.batch.size = size →
    start c processors other.readAll.records other.readAll.failure.isNone = .ok s →
    s.run? plan actors = some g → g.Returned → g.lines = f.lines
  /-- The program appends these lines to the output, and succeeds. -/
  exit : ∀ {σ H : Type} {ops : FileOps (StateM σ) H} {output : H} {ready : σ → Prop}
    {content : σ → Bytes}, Buffer.Takes ops output ready content → ∀ (path : String) {s : σ}, ready s →
      ∃ s', (settle ops path output (outcome f none)).run s = ({ code := 0 }, s') ∧
        content s' = content s ++
          Buffer.lineBytes ((report size (tokens.flatMap Record.ofToken)).map Line.spelled)
  /-- What it appends is read back as what the lines say, if 64 bits are enough to count the records. -/
  reads : (tokens.flatMap Record.ofToken).length ≤ Json.wordLimit → Json.Stream.Yields
    { rest := Buffer.lineBytes (f.lines.map Line.spelled), ending := .closed }
    (f.lines.map Line.value)

theorem Ordered.reported_of_returned {tokens : List Json}
    (h : Ordered batchSize p w (tokens.flatMap Record.ofToken) f) (prepared : Prepared p w)
    (one : p.workerCount = 1) (returned : f.Returned) :
    Reported (effectiveSize batchSize) tokens f := by
  have lines := h.lines_eq prepared one returned
  refine ⟨lines, lines ▸ inOrder_report _ _, ?_, ?_, fun fits => ?_⟩
  · intro c processors other s g actors decoded single size made ran returned'
    rw [Reader.readAll_eq decoded] at made
    obtain ⟨p', w', prepared', count, rfl⟩ := Flow.exists_fresh made
    have ordered := Ordered.of_run prepared' (count.trans single) ran
    rw [ordered.lines_eq prepared' (count.trans single) returned', lines, size]
  · intro σ H ops output ready content takes path s isReady
    obtain ⟨phase, staged⟩ := h.steered.staged
    rw [← lines]
    exact run_settle staged.unrefused.1 none takes path isReady
  · obtain ⟨-, groups, summary⟩ := h.steered.handed prepared returned
    exact summary.yields fits

/-- **With one worker the output is a function of the input.** In whatever order the threads move, a run
ends, and it writes the report of its records: the groups in their order, and then the totals. So does
the program. -/
theorem writesReport {c : IngestConfig} {processors : Nat} {input : Reader} {tokens : List Json}
    (decoded : input.stream.Yields tokens) (one : c.pool.workers processors = 1)
    (room : 0 < c.pool.queueCapacity) :
    ∃ f, start c processors input.readAll.records input.readAll.failure.isNone = .ok f ∧
      (∀ actors g, f.run? plan actors = some g → actors.length < f.stepBound 2 ∧
        Ends (effectiveSize c.batch.size) (tokens.flatMap Record.ofToken) true g ∧
        (g.Returned → Reported (effectiveSize c.batch.size) tokens g)) ∧
      ∃ actors g, f.run? plan actors = some g ∧ g.Returned ∧ Makes c processors input none g := by
  have reading := Reader.readAll_eq decoded
  obtain ⟨_, _, -, made⟩ := Flow.exists_create (one ▸ Nat.one_pos) room room
    c.batch.size ({} : Counters) (commands (tokens.flatMap Record.ofToken) true)
  obtain ⟨p, w, prepared, count, same⟩ := Flow.exists_fresh made
  have single := count.trans one
  have begun : start c processors input.readAll.records input.readAll.failure.isNone =
      .ok (fresh c.batch.size p w {} (commands (tokens.flatMap Record.ofToken) true)) := by
    rw [reading]
    exact same ▸ made
  obtain ⟨actors, g, h, returned, makes⟩ := exists_makes prepared begun
  rw [reading] at makes
  refine ⟨_, begun, fun actors g h => ?_, actors, g, h, returned, makes⟩
  exact ⟨length_lt_stepBound prepared within_task h, ends_of_run prepared h, fun returned =>
    (Ordered.of_run prepared single h).reported_of_returned prepared single returned⟩

/-- One worker, groups of two records, and room for one job. -/
def lonelyConfig : IngestConfig where
  pool := { queueCapacity := 1, workerCount := some 1 }
  batch := { size := 2 }

/-- The group of two records is written before the group of one. -/
theorem writesReport_shortInput :
    shortInput.stream.Yields shortTokens ∧
      lonelyConfig.pool.workers 4 = 1 ∧ 0 < lonelyConfig.pool.queueCapacity ∧
      ∃ t : FileTree,
        (runInto FileTree.ops lonelyConfig 4 shortInput "numbers" ["dev", "stdout"]).run
            FileTree.base = ({ code := 0 }, t) ∧
          t.output = bytesOf
            ("\x7b\"group\":0,\"size\":2,\"types\":\x7b\"a\":1,\"value\":1\x7d\x7d\n" ++
              "\x7b\"group\":1,\"size\":1,\"types\":\x7b\"value\":1\x7d\x7d\n" ++
              "\x7b\"groups\":2,\"records\":3\x7d\n") := by
  refine ⟨yields_shortInput, rfl, by decide, ?_⟩
  obtain ⟨f, -, all, actors, g, h, returned, makes⟩ :=
    @writesReport lonelyConfig 4 shortInput _ yields_shortInput rfl (by decide)
  obtain ⟨t, ended, output⟩ := ((all actors g h).2.2 returned).exit
    (FileTree.takes_output ["dev", "stdout"]) "numbers" (s := FileTree.base) rfl
  refine ⟨t, by rw [makes.settles, ended], ?_⟩
  rw [output]
  decide +kernel

end Ingest

end BatchPool
