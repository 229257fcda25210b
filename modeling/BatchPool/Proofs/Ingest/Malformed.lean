import BatchPool.Proofs.Ingest.Ending

/-!
# An ingest run over malformed input

What stands before the first token that cannot be decoded is summarised as if nothing stood behind it,
but without totals. The run fails, and says which token it was.

* `Ingest.contentsOf`: what the lines of groups say, but for the numbers of the groups.
* `Ingest.malformedExit`: the exit code of such a program, and what it says.
* `Ingest.Interrupted`: what a run over malformed input comes to.
* `Ingest.interrupted`: so it is in whatever order the threads move.
-/

namespace BatchPool

namespace Ingest

open BatchPool.Flow
open scoped List

/-! ## The lines -/

/-- What the lines of groups say, but for the numbers of the groups. -/
def contentsOf (lines : List Line) : List (Nat × Tally) := (lines.filterMap Line.fields?).map (·.2)

@[simp] theorem contentsOf_missing (lines : List Line) (complete : Bool)
    (groups : List (Nat × Nat × Tally)) (records : List Record) :
    contentsOf (lines ++ missing complete groups records) = contentsOf lines := by
  cases complete <;> simp [contentsOf, missing, Line.fields?]

variable {size : Nat} {records : List Record} {groups : List (Nat × Nat × Tally)}
  {lines : List Line}

theorem Summary.contentsOf_eq (h : Summary size records groups lines) :
    contentsOf lines = groups.map (·.2) := by
  rw [h.lines_eq, contentsOf, List.filterMap_append, List.filterMap_map]
  simp [Function.comp_def, Line.fields?]

/-- Without the totals there are only lines of groups. -/
theorem Summary.isGroup (h : Summary size records groups (lines ++ missing false groups records)) :
    ∀ line ∈ lines, line.isGroup = true := by
  have same : lines = groups.map fun g => .group g.1 g.2.1 g.2.2 :=
    List.append_cancel_right h.lines_eq
  rw [same]
  exact List.forall_mem_map.2 fun _ _ => rfl

variable {batchSize : Nat} {p : Pool (Job (List Record))} {w : Pool (Job Line)}
  {complete : Bool} {f g : Flow Record Counters Line}

/-- The lines of the groups are those of the parts, whether the input was complete or not. -/
theorem Steered.contentsOf_perm (h : Steered batchSize p w records complete f)
    (prepared : Prepared p w) (returned : f.Returned) :
    contentsOf f.lines ~ (Batch.chunks (effectiveSize batchSize) records).map
      fun part => (part.length, types part) := by
  obtain ⟨-, groups, summary⟩ := h.handed prepared returned
  have same := summary.contentsOf_eq
  rw [contentsOf_missing] at same
  exact same ▸ summary.parts

/-! ## The end of the program -/

/-- The end of a program that read the given number of tokens before the one with the fault. -/
def malformedExit (path : String) (tokens : Nat) (fault : Json.Fault) : Exit where
  code := 1
  errors := ["Error: " ++ (path ++ " is malformed"), "", "Caused by:",
    "    0: " ++ ("failed to decode token " ++ toString (tokens + 1)), "    1: " ++ fault.message]

theorem failed_decodeFailure (path : String) (tokens : Nat) (fault : Json.Fault) :
    Exit.failed ((Reader.decodeFailure tokens fault).context (path ++ " is malformed")) =
      malformedExit path tokens fault := by
  have first : Failure.padded 0 ++ ": " = "    0: " := by decide
  have second : Failure.padded 1 ++ ": " = "    1: " := by decide
  rw [malformedExit, ← first, ← second]
  rfl

/-- What a run over input with these tokens before a fault comes to when the reading thread has
returned. -/
structure Interrupted (size : Nat) (tokens : List Json) (fault : Json.Fault)
    (f : Flow Record Counters Line) : Prop where
  /-- There are only lines of groups, and no totals. -/
  groups : ∀ line ∈ f.lines, line.isGroup = true
  /-- With the totals they would be a summary of the records of these tokens. -/
  summary : ∃ groups, Summary size (tokens.flatMap Record.ofToken) groups
    (f.lines ++ missing false groups (tokens.flatMap Record.ofToken))
  /-- Any run over input with just these tokens, in groups of that size, writes the same groups, but for
  their order and their numbers. -/
  same : ∀ {c : IngestConfig} {processors : Nat} {short : Reader} {s g actors},
    short.stream.Yields tokens → effectiveSize c.batch.size = size →
    start c processors short.readAll.records short.readAll.failure.isNone = .ok s →
    s.run? plan actors = some g → g.Returned → contentsOf f.lines ~ contentsOf g.lines
  /-- The program appends these lines to the output, and fails: it says which token it was, and why. -/
  exit : ∀ {σ H : Type} {ops : FileOps (StateM σ) H} {output : H} {ready : σ → Prop}
    {content : σ → Bytes}, Buffer.Takes ops output ready content → ∀ (path : String) {s : σ}, ready s →
      ∃ s', (settle ops path output
          (outcome f (some (Reader.decodeFailure tokens.length fault)))).run s =
        (malformedExit path tokens.length fault, s') ∧
          content s' = content s ++ Buffer.lineBytes (f.lines.map Line.spelled)
  /-- What it appends is read back as what the lines say, if 64 bits are enough to count the records. -/
  reads : (tokens.flatMap Record.ofToken).length ≤ Json.wordLimit → Json.Stream.Yields
    { rest := Buffer.lineBytes (f.lines.map Line.spelled), ending := .closed }
    (f.lines.map Line.value)

theorem Steered.interrupted_of_returned {tokens : List Json}
    (h : Steered batchSize p w (tokens.flatMap Record.ofToken) false f)
    (prepared : Prepared p w) (returned : f.Returned) (fault : Json.Fault) :
    Interrupted (effectiveSize batchSize) tokens fault f where
  groups := by
    obtain ⟨-, groups, summary⟩ := h.handed prepared returned
    exact summary.isGroup
  summary := (h.handed prepared returned).2
  same := by
    intro c processors short s g actors decoded size made ran returned'
    rw [Reader.readAll_eq decoded] at made
    obtain ⟨p', w', prepared', -, rfl⟩ := Flow.exists_fresh made
    have steered := Steered.of_run prepared' ran
    exact (h.contentsOf_perm prepared returned).trans
      (size ▸ (steered.contentsOf_perm prepared' returned').symm)
  exit := by
    intro σ H ops output ready content takes path s isReady
    obtain ⟨phase, staged⟩ := h.staged
    rw [← failed_decodeFailure]
    exact run_settle staged.unrefused.1 (some (Reader.decodeFailure tokens.length fault)) takes path
      isReady
  reads fits := by
    obtain ⟨-, groups, summary⟩ := h.handed prepared returned
    exact summary.yields fits

/-- **An ingest run over malformed input.** The input could be cut off before the fault, and be decoded
then. In whatever order the threads move, a run ends, and it writes the groups of that input, no totals,
and says which token has the fault. So does the program. -/
theorem interrupted {c : IngestConfig} {processors : Nat} {bytes : Bytes} {ending : Ending}
    {tokens : List Json} {fault : Json.Fault}
    (broken : (Reader.ofBytes bytes ending).stream.Breaks tokens fault)
    (workers : 0 < c.pool.workers processors) (room : 0 < c.pool.queueCapacity) :
    (∃ cut, cut <+: bytes ∧ (Reader.ofBytes cut .closed).stream.Yields tokens) ∧
      ∃ f, start c processors (Reader.ofBytes bytes ending).readAll.records
          (Reader.ofBytes bytes ending).readAll.failure.isNone = .ok f ∧
        (∀ actors g, f.run? plan actors = some g → actors.length < f.stepBound 2 ∧
          Ends (effectiveSize c.batch.size) (tokens.flatMap Record.ofToken) false g ∧
          (g.Returned → Interrupted (effectiveSize c.batch.size) tokens fault g)) ∧
        ∃ actors g, f.run? plan actors = some g ∧ g.Returned ∧
          Makes c processors (.ofBytes bytes ending)
            (some (Reader.decodeFailure tokens.length fault)) g := by
  have reading := Reader.readAll_of_breaks broken
  rw [Reader.ofBytes, Nat.zero_add] at reading
  obtain ⟨p, w, prepared, made⟩ := Flow.exists_create workers room room
    c.batch.size ({} : Counters) (commands (tokens.flatMap Record.ofToken) false)
  have begun : start c processors (Reader.ofBytes bytes ending).readAll.records
      (Reader.ofBytes bytes ending).readAll.failure.isNone =
        .ok (fresh c.batch.size p w {} (commands (tokens.flatMap Record.ofToken) false)) := by
    rw [Reader.ofBytes, reading]
    exact made
  obtain ⟨actors, g, h, returned, makes⟩ := exists_makes prepared begun
  rw [Reader.ofBytes, reading, ← Reader.ofBytes] at makes
  refine ⟨broken.exists_yields, _, begun, fun actors g h => ?_, actors, g, h, returned, makes⟩
  exact ⟨length_lt_stepBound prepared within_task h, ends_of_run prepared h, fun returned =>
    (Steered.of_run prepared h).interrupted_of_returned prepared returned fault⟩

/-- A number, an array of two, and a letter that starts no value. -/
def faultyBytes : Bytes := [0x31, 0x20, 0x5B, 0x32, 0x2C, 0x33, 0x5D, 0x78]

set_option maxRecDepth 4000 in
theorem breaks_faultyBytes : (Reader.ofBytes faultyBytes .closed).stream.Breaks
    [.int 1, .arr [.int 2, .int 3]] (.malformed .expectedValue) := by
  have first : (Reader.ofBytes faultyBytes .closed).stream.next =
      (.value (.int 1), { rest := faultyBytes.drop 1, ending := .closed }) := by
    cbv
  have second : ({ rest := faultyBytes.drop 1, ending := .closed } : Json.Stream).next =
      (.value (.arr [.int 2, .int 3]), { rest := [0x78], ending := .closed }) := by
    cbv
  have third : ({ rest := [0x78], ending := .closed } : Json.Stream).next =
      (.fault (.malformed .expectedValue), { rest := [0x78], ending := .closed, failed := true }) := by
    cbv
  exact .value first (.value second (.fault third))

/-- Two groups are written, and the program says that the third token has a fault. -/
theorem interrupted_faultyBytes :
    (Reader.ofBytes faultyBytes .closed).stream.Breaks [.int 1, .arr [.int 2, .int 3]]
        (.malformed .expectedValue) ∧
      0 < shortConfig.pool.workers 1 ∧ 0 < shortConfig.pool.queueCapacity ∧
      ∃ (lines : List Line) (t : FileTree),
        (runInto FileTree.ops shortConfig 1 (.ofBytes faultyBytes .closed) "numbers"
          ["dev", "stdout"]).run FileTree.base =
            ({ code := 1, errors := ["Error: numbers is malformed", "", "Caused by:",
              "    0: failed to decode token 3", "    1: expected value"] }, t) ∧
        t.output = Buffer.lineBytes (lines.map Line.spelled) ∧
        t.output = bytesOf
          ("\x7b\"group\":0,\"size\":2,\"types\":\x7b\"value\":2\x7d\x7d\n" ++
            "\x7b\"group\":1,\"size\":1,\"types\":\x7b\"value\":1\x7d\x7d\n") ∧
        lines.length = 2 ∧ ∀ line ∈ lines, line.isGroup = true := by
  refine ⟨breaks_faultyBytes, by decide, by decide, ?_⟩
  obtain ⟨-, f, -, all, actors, g, h, returned, makes⟩ :=
    @interrupted shortConfig 1 _ _ _ _ breaks_faultyBytes (by decide) (by decide)
  have last := (all actors g h).2.2 returned
  obtain ⟨t, ended, output⟩ :=
    last.exit (FileTree.takes_output ["dev", "stdout"]) "numbers" (s := FileTree.base) rfl
  have lines : (run shortConfig 1 (.ofBytes faultyBytes .closed)).toOption.map Result.lines =
      some [.group 0 2 [("value", 2)], .group 1 1 [("value", 1)]] := by
    rw [run, Reader.readAll_of_breaks breaks_faultyBytes]
    decide +kernel
  rw [makes.result] at lines
  have written : g.lines = _ := Option.some.inj lines
  refine ⟨g.lines, t, ?_, output, ?_, by rw [written]; rfl, last.groups⟩
  · rw [makes.settles, ended]
    exact congrArg (·, t) (by decide)
  · rw [output, written]
    decide +kernel

end Ingest

end BatchPool
