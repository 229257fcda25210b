import BatchPool.Proofs.Flow.Progress
import BatchPool.Proofs.Ingest.Exit

/-!
# The output of an ingest run

* `Ingest.Steered`: what holds of the flow whenever its threads have moved.
* `Ingest.Ingested`: what follows for a flow: no call is refused, some thread can move until the
  reading thread is done, and then the lines are a summary, which the program writes.
* `Ingest.summarised`: so it is for decoded input, in whatever order the threads move, and the program
  makes one of these runs.
-/

namespace BatchPool

namespace Ingest

open BatchPool.Flow
open scoped List

theorem commands_eq (records : List Record) (complete : Bool) :
    commands records complete = (Phase.opening records).commands complete := by
  simp [commands, Phase.commands, Phase.closing]

/-- A task makes two steps on the counters. -/
theorem within_task (i : Nat) (job : Job (List Record)) : (plan.task i job).Within 2 := by
  show (task job).Within 2
  unfold task
  split
  · exact fun _ _ => trivial
  · exact fun _ _ => trivial

variable {batchSize : Nat} {p : Pool (Job (List Record))} {w : Pool (Job Line)}
  {records : List Record} {complete : Bool} {f g : Flow Record Counters Line} {actors : List Actor}

/-- What holds of an ingest run after every step. -/
structure Steered (batchSize : Nat) (p : Pool (Job (List Record))) (w : Pool (Job Line))
    (records : List Record) (complete : Bool) (f : Flow Record Counters Line) : Prop where
  staged : ∃ phase, Staged batchSize p w records complete phase f
  posted : f.Posted
  manned : f.work.Manned
  tracked : ∃ stages numbered, Tracked f.work stages numbered

theorem Steered.start (prepared : Prepared p w) :
    Steered batchSize p w records complete
      (fresh batchSize p w {} (commands records complete)) := by
  rw [commands_eq]
  refine ⟨⟨_, .start prepared.pool prepared.writer ({} : Counters)⟩,
    .start prepared.pool _ ?_, ?_, [], [], ?_⟩
  · simp [Phase.commands]
  · rw [work_fresh prepared.pool]
    intro i t executing
    cases executing
  · rw [work_fresh prepared.pool]
    exact {
      assigned := ⟨rfl, List.nodup_nil, by simp⟩
      balance := ⟨rfl, rfl, rfl, rfl, rfl⟩
      current := by simp
      sorted := ⟨[], 0, rfl, by simp⟩ }

/-- **The steps of an ingest run keep what holds of it.** -/
theorem Steered.next {actor : Actor} (h : Steered batchSize p w records complete f)
    (prepared : Prepared p w) (hm : Flow.Moves plan f actor g) :
    Steered batchSize p w records complete g := by
  obtain ⟨⟨phase, staged⟩, posted, manned, stages, numbered, tracked⟩ := h
  obtain ⟨phase', next, moved⟩ := staged.next prepared.pool (fun _ => rfl) hm
  exact ⟨⟨phase', next⟩, posted.next staged next hm, manned.next moved,
    tracked.next (fun i t => staged.apart prepared.pool) moved⟩

theorem Steered.of_run (prepared : Prepared p w)
    (h : (fresh batchSize p w {} (commands records complete)).run? plan actors = some f) :
    Steered batchSize p w records complete f :=
  run_induction (motive := Steered batchSize p w records complete) (.start prepared)
    (fun _ _ _ steered hm => steered.next prepared hm) h

/-- While the reading thread has not returned, some thread can move. -/
theorem Steered.goesOn (h : Steered batchSize p w records complete f) (prepared : Prepared p w)
    (unfinished : ¬f.Returned) : ∃ actor ∈ f.actors, (f.step? plan actor).isSome = true := by
  obtain ⟨⟨phase, staged⟩, posted, manned, -⟩ := h
  by_contra blocked
  have halted : Halted batchSize p w records complete phase plan f :=
    ⟨staged, posted, manned, by simpa using blocked⟩
  exact unfinished (halted.returned prepared)

/-- When it has, the writer has written the lines that it was given. They are a summary, but for the
totals of an input that is not complete. -/
theorem Steered.handed (h : Steered batchSize p w records complete f) (prepared : Prepared p w)
    (returned : f.Returned) : f.lines = f.writer.accepted.map (·.job.context) ∧
      ∃ groups, Summary (effectiveSize batchSize) records groups
        (f.lines ++ missing complete groups records) := by
  obtain ⟨⟨phase, staged⟩, -, -, stages, numbered, tracked⟩ := h
  obtain ⟨began, lines, idle⟩ :=
    staged.of_returned prepared.pool prepared.writer prepared.single returned
  refine ⟨lines, ?_⟩
  rw [lines]
  exact tracked.summary idle (effectiveSize_pos batchSize) began

/-- What an ingest run over complete input comes to, in whatever order its threads have moved. -/
structure Ingested (size : Nat) (records : List Record) (f : Flow Record Counters Line) : Prop where
  /-- No job is refused, neither a group nor a line, and no call of the batch fails. -/
  groups : f.feed.play.refused = []
  lines : f.writer.refused = []
  replies : ∀ reply ∈ f.feed.replies, reply = .ok
  /-- While the reading thread has not returned, some thread can move. -/
  goesOn : ¬f.Returned → ∃ actor ∈ f.actors, (f.step? plan actor).isSome = true
  /-- When it has, the lines are a summary. -/
  summary : f.Returned → ∃ groups, Summary size records groups f.lines
  /-- The program appends the lines to the output, and succeeds. -/
  exit : ∀ {σ H : Type} {ops : FileOps (StateM σ) H} {output : H} {ready : σ → Prop}
    {content : σ → Bytes}, Buffer.Takes ops output ready content → ∀ (path : String) {s : σ}, ready s →
      ∃ s', (settle ops path output (outcome f none)).run s = ({ code := 0 }, s') ∧
        content s' = content s ++ Buffer.lineBytes (f.lines.map Line.spelled)
  /-- What it appends is read back as what the lines say, if 64 bits are enough to count the records. -/
  reads : f.Returned → records.length ≤ Json.wordLimit → Json.Stream.Yields
    { rest := Buffer.lineBytes (f.lines.map Line.spelled), ending := .closed }
    (f.lines.map Line.value)

theorem Steered.ingested (h : Steered batchSize p w records true f) (prepared : Prepared p w) :
    Ingested (effectiveSize batchSize) records f := by
  obtain ⟨phase, staged⟩ := h.staged
  obtain ⟨groups, lines, replies⟩ := staged.unrefused
  refine ⟨groups, lines, replies, h.goesOn prepared, fun returned => ?_,
    fun takes path _ isReady => run_settle groups none takes path isReady, fun returned fits => ?_⟩
  · obtain ⟨-, groups, summary⟩ := h.handed prepared returned
    exact ⟨groups, by simpa [missing] using summary⟩
  · obtain ⟨-, groups, summary⟩ := h.handed prepared returned
    exact summary.yields fits

/-- A run to its end is one of the runs after which the reading thread has returned. -/
theorem exists_run_returned (prepared : Prepared p w)
    (start : f = fresh batchSize p w {} (commands records complete)) :
    ∃ actors, f.run? plan actors = some (f.finish plan 2) ∧ (f.finish plan 2).Returned := by
  subst start
  obtain ⟨actors, h, blocked⟩ := exists_run_finish prepared within_task rfl
  refine ⟨actors, h, ?_⟩
  by_contra unfinished
  obtain ⟨actor, mem, possible⟩ := (Steered.of_run prepared h).goesOn prepared unfinished
  rw [blocked actor mem] at possible
  cases possible

/-- The program makes one of these runs. -/
theorem exists_makes {c : IngestConfig} {processors : Nat} {input : Reader}
    (prepared : Prepared p w)
    (begun : start c processors input.readAll.records input.readAll.failure.isNone =
      .ok (fresh batchSize p w {} (commands records complete))) :
    ∃ actors g, (fresh batchSize p w {} (commands records complete)).run? plan actors = some g ∧
      g.Returned ∧ Makes c processors input input.readAll.failure g := by
  generalize same : fresh batchSize p w ({} : Counters) (commands records complete) = f at begun ⊢
  obtain ⟨actors, h, returned⟩ := exists_run_returned prepared same.symm
  have ran : run c processors input = outcome (f.finish plan 2) input.readAll.failure := by
    rw [run, begun]
    exact finish_eq_outcome ..
  subst same
  obtain ⟨phase, staged⟩ := (Steered.of_run prepared h).staged
  exact ⟨actors, _, h, returned, .of_run staged.unrefused.1 ran⟩

/-- **An ingest run over decoded input.** In whatever order the threads move, a run ends, and its lines
are a summary of the records. So it is for the run that the program makes. -/
theorem summarised {c : IngestConfig} {processors : Nat} {input : Reader} {tokens : List Json}
    (decoded : input.stream.Yields tokens) (workers : 0 < c.pool.workers processors)
    (room : 0 < c.pool.queueCapacity) :
    ∃ f, start c processors input.readAll.records input.readAll.failure.isNone = .ok f ∧
      (∀ actors g, f.run? plan actors = some g → actors.length < f.stepBound 2 ∧
        Ingested (effectiveSize c.batch.size) (tokens.flatMap Record.ofToken) g) ∧
      ∃ actors g, f.run? plan actors = some g ∧ g.Returned ∧ Makes c processors input none g := by
  have reading := Reader.readAll_eq decoded
  obtain ⟨p, w, prepared, made⟩ := Flow.exists_create workers room room
    c.batch.size ({} : Counters) (commands (tokens.flatMap Record.ofToken) true)
  have begun : start c processors input.readAll.records input.readAll.failure.isNone =
      .ok (fresh c.batch.size p w {} (commands (tokens.flatMap Record.ofToken) true)) := by
    rw [reading]
    exact made
  obtain ⟨actors, g, h, returned, makes⟩ := exists_makes prepared begun
  rw [reading] at makes
  exact ⟨_, begun, fun actors g h => ⟨length_lt_stepBound prepared within_task h,
    (Steered.of_run prepared h).ingested prepared⟩, actors, g, h, returned, makes⟩

/-- A number, an empty array, and an array of an object with a type and a number. -/
def shortInput : Reader := .ofBytes (bytesOf "1 [] [\x7b\"type\":\"a\"\x7d,2]") .closed

/-- What these are. -/
def shortTokens : List Json := [.int 1, .arr [], .arr [.obj [("type", .str "a")], .int 2]]

/-- Two workers, groups of two records, and room for one job. -/
def shortConfig : IngestConfig where
  pool := { queueCapacity := 1, workerCount := some 2 }
  batch := { size := 2 }

theorem yields_shortInput : shortInput.stream.Yields shortTokens := by
  have blank : Json.isBlank 0x20 = true := by decide
  have object : (Json.obj [("type", .str "a")]).Writable 126 :=
    .obj fun m hm => by
      obtain rfl := List.mem_singleton.1 hm
      exact .str _ _
  have items : ∀ v ∈ [Json.obj [("type", .str "a")], .int 2], v.Writable 126 := by
    simp only [List.forall_mem_cons]
    exact ⟨object, .int _ (by decide) (by decide), by simp⟩
  have pieces : Framed .closed []
      [⟨.int 1, [0x20]⟩, ⟨.arr [], [0x20]⟩, ⟨.arr [.obj [("type", .str "a")], .int 2], []⟩] :=
    .cons (.int _ (by decide) (by decide)) (List.forall_mem_singleton.2 blank) (by simp)
      (.cons (.arr (by simp)) (List.forall_mem_singleton.2 blank) (by simp)
        (.cons (.arr items) (by simp) (fun _ => .inl rfl) .nil))
  have bytes : bytesOf "1 [] [\x7b\"type\":\"a\"\x7d,2]" = framed
      [⟨.int 1, [0x20]⟩, ⟨.arr [], [0x20]⟩, ⟨.arr [.obj [("type", .str "a")], .int 2], []⟩] [] := by
    decide +kernel
  rw [shortInput, bytes]
  exact pieces.yields

/-- The input in a file. -/
def shortTree : FileTree := FileTree.base.put ["in"] (.file (bytesOf "1 [] [\x7b\"type\":\"a\"\x7d,2]"))

/-- A command line for a run over the file. -/
def shortWords : List String :=
  ["--input", "in", "--workers", "2", "--queue-capacity=1", "--batch-size", "2"]

theorem opens_shortWords :
    Opens FileTree.ops shortWords shortTree shortConfig shortInput "in" ["dev", "stdout"]
      shortTree := by
  have asked : CommandLine.read shortWords = .run {
      input := "in", workers := some 2, queueCapacity := some 1, batchSize := some 2 } := by
    decide +kernel
  -- No `/` is among the two characters, so the text is its own only component.
  have components : "in".splitOn "/" = ["in"] := by
    rw [String.splitOn, if_neg (by decide), String.splitOnAux, if_neg (by decide +kernel),
      if_neg (by decide +kernel), String.splitOnAux, if_neg (by decide +kernel),
      if_neg (by decide +kernel), String.splitOnAux, if_pos (by decide +kernel)]
    decide +kernel
  have resolved : shortTree.resolve "in" = .ok ["in"] := by
    rw [FileTree.resolve, if_neg (by decide), components]
    rfl
  have opened : shortTree.openFile "in" = .ok ["in"] := by
    rw [FileTree.openFile, resolved]
    rfl
  exact .intro asked rfl (show _ = (_, shortTree) from rfl)
    (show (_, shortTree) = _ from congrArg (·, shortTree) opened)
    (show _ = (_, shortTree) from rfl) rfl

/-- The program writes two groups, and then the totals. -/
theorem summarised_shortInput :
    shortInput.stream.Yields shortTokens ∧ 0 < shortConfig.pool.workers 1 ∧
      0 < shortConfig.pool.queueCapacity ∧
      ∃ t : FileTree,
        (program FileTree.ops 1 shortWords).run shortTree = ({ code := 0 }, t) ∧
        t.output = bytesOf
          ("\x7b\"group\":0,\"size\":2,\"types\":\x7b\"a\":1,\"value\":1\x7d\x7d\n" ++
            "\x7b\"group\":1,\"size\":1,\"types\":\x7b\"value\":1\x7d\x7d\n" ++
            "\x7b\"groups\":2,\"records\":3\x7d\n") := by
  refine ⟨yields_shortInput, by decide, by decide, ?_⟩
  obtain ⟨f, -, all, actors, g, h, returned, makes⟩ :=
    @summarised shortConfig 1 shortInput _ yields_shortInput (by decide) (by decide)
  obtain ⟨t, ended, output⟩ := (all actors g h).2.exit (FileTree.takes_output ["dev", "stdout"])
    "in" (s := shortTree) rfl
  have lines : (run shortConfig 1 shortInput).toOption.map Result.lines =
      some [.group 0 2 [("a", 1), ("value", 1)], .group 1 1 [("value", 1)], .totals 2 3] := by
    rw [run, Reader.readAll_eq yields_shortInput]
    decide +kernel
  rw [makes.result] at lines
  have written : g.lines = _ := Option.some.inj lines
  refine ⟨t, by rw [makes.program opens_shortWords, ended], ?_⟩
  rw [output, written]
  decide +kernel

end Ingest

end BatchPool
