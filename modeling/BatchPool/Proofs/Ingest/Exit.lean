import BatchPool.Ingest.Program
import BatchPool.Proofs.Ingest.Spelling

/-!
# The end of the program

When the input and the output are open, the program runs and writes the lines of the flow. If no call of
the reading thread was refused, all of them are appended to the output, and the program only fails if the
input is malformed.

* `Ingest.outcome`, `Ingest.settle`: what the reading thread and the program make of a flow at its end.
* `Ingest.run_settle`: what becomes of the output.
* `Ingest.Opens`: the words of a command line by which the program comes to run over an input.
  `Opens.run_program`: that run is all that it does then.
* `Ingest.Makes`: the program makes the run that has led to a flow.
-/

namespace BatchPool

namespace Ingest

open BatchPool.Flow

/-- What the reading thread makes of a flow at its end. -/
def outcome (f : Flow Record Counters Line) (malformed : Option Failure) : Except Failure Result :=
  if refused f then .error { cause := .pool .closed }
  else .ok { lines := f.lines, malformed := malformed }

theorem finish_eq_outcome (f : Flow Record Counters Line) (malformed : Option Failure) :
    finish f malformed = outcome (f.finish plan 2) malformed := rfl

/-- Where no job is refused no call of the reading thread is. -/
theorem refused_eq_false {f : Flow Record Counters Line} (groups : f.feed.play.refused = []) :
    refused f = false := by
  rw [refused, List.any_eq_false]
  intro e he rejected
  have none : ∀ job, job ∉ f.feed.play.refused := by simp [groups]
  split at rejected
  · next job => exact none job (Pool.Play.mem_events.2 ⟨_, he, rfl⟩)
  · cases rejected

theorem outcome_eq {f : Flow Record Counters Line} (groups : f.feed.play.refused = [])
    (malformed : Option Failure) :
    outcome f malformed = .ok { lines := f.lines, malformed := malformed } := by
  rw [outcome, refused_eq_false groups, if_neg Bool.false_ne_true]

section

variable {m : Type → Type} {H : Type} [Monad m]

/-- What the program makes of a run: it writes the lines and ends. -/
def settle (ops : FileOps m H) (path : String) (output : H) : Except Failure Result → m Exit
  | .error f => return .failed f
  | .ok result => do
    match ← (Buffer.writeLines ops output (result.lines.map Line.text)).run' {} with
    | .error e => return .failed { cause := .os e }
    | .ok () =>
      match result.malformed with
      | none => return { code := 0 }
      | some f => return .failed (f.context (path ++ " is malformed"))

theorem runInto_eq_settle (ops : FileOps m H) (c : IngestConfig) (processors : Nat)
    (input : Reader) (path : String) (output : H) :
    runInto ops c processors input path output =
      settle ops path output (run c processors input) := rfl

end

variable {σ H : Type} {ops : FileOps (StateM σ) H} {output : H}

/-- After a run without a refused call the program appends the lines to the output, and only fails if
the input is malformed. -/
theorem run_settle {f : Flow Record Counters Line} (groups : f.feed.play.refused = [])
    (malformed : Option Failure) {ready : σ → Prop} {content : σ → Bytes}
    (takes : Buffer.Takes ops output ready content) (path : String) {s : σ} (isReady : ready s) :
    ∃ s', (settle ops path output (outcome f malformed)).run s =
        (malformed.elim { code := 0 } fun f => .failed (f.context (path ++ " is malformed")), s') ∧
      content s' = content s ++ Buffer.lineBytes (f.lines.map Line.spelled) := by
  obtain ⟨s', written, -, all⟩ := Buffer.run_writeLines takes (f.lines.map Line.text) {} isReady
  refine ⟨s', ?_, ?_⟩
  · rw [outcome_eq groups, settle]
    simp only [StateT.run_bind, StateT.run'_eq, StateT.run_map, written]
    cases malformed <;> rfl
  · rw [all, List.append_nil, List.map_congr_left fun line _ => line.text_eq_spelled]

/-! ## From the command line -/

/-- The words ask for a run with configuration `c` over the input at `path`: when the program has opened
the input and the output and has got the bytes of the input, the state has changed from `s` to `t`. -/
inductive Opens (ops : FileOps (StateM σ) H) (words : List String) (s : σ) :
    IngestConfig → Reader → String → H → σ → Prop where
  | intro {a : Arguments} {c : IngestConfig} {file output : H} {bytes : Bytes} {ending : Ending}
      {s₁ s₂ s₃ t : σ} (asked : CommandLine.read words = .run a) (usable : a.fault? = none)
      (configured : (loadConfig ops a).run s = (.ok c, s₁))
      (opened : (ops.openFile a.input).run s₁ = (.ok file, s₂))
      (created : (openOutput ops a).run s₂ = (.ok output, s₃))
      (served : (ops.contents file).run s₃ = ((bytes, ending), t)) :
      Opens ops words s c (.ofBytes bytes ending) a.input output t

/-- What follows an action goes on where the action ends. -/
theorem run_bind_next {α β : Type} {act : StateM σ α} {next : α → StateM σ β} {s s' : σ} {r : α}
    (h : act.run s = (r, s')) : (act >>= next).run s = (next r).run s' := by
  rw [StateT.run_bind, h]
  rfl

/-- **The program runs over the input that it has opened.** -/
theorem Opens.run_program {words : List String} {c : IngestConfig} {input : Reader} {path : String}
    {s t : σ} (h : Opens ops words s c input path output t) (processors : Nat) :
    (program ops processors words).run s =
      (settle ops path output (run c processors input)).run t := by
  rw [← runInto_eq_settle]
  cases h with
  | @intro a _ file _ _ _ s₁ s₂ s₃ _ asked usable configured opened created served =>
    simp only [program, asked, usable]
    rw [run_bind_next configured]
    show (ingest ops a c processors).run s₁ = _
    rw [ingest, run_bind_next opened]
    show (openOutput ops a >>= _).run s₂ = _
    rw [run_bind_next created]
    show (ops.contents file >>= _).run s₃ = _
    rw [run_bind_next served]

/-- The program makes the run that has led to this flow, and reading the input has failed like this, if
it has: its result are the lines of the flow, and this is what it settles. -/
structure Makes (c : IngestConfig) (processors : Nat) (input : Reader) (malformed : Option Failure)
    (f : Flow Record Counters Line) : Prop where
  result : run c processors input = .ok { lines := f.lines, malformed := malformed }
  /-- So it is when the input and the output are open. -/
  settles : ∀ {m : Type → Type} {H : Type} [Monad m] (ops : FileOps m H) (path : String) (output : H),
    runInto ops c processors input path output = settle ops path output (outcome f malformed)
  /-- So it is from the beginning, if the words are those of such a run. -/
  program : ∀ {σ H : Type} {ops : FileOps (StateM σ) H} {words : List String} {path : String}
    {output : H} {s t : σ}, Opens ops words s c input path output t →
      (program ops processors words).run s =
        (settle ops path output (outcome f malformed)).run t

theorem Makes.of_run {c : IngestConfig} {processors : Nat} {input : Reader}
    {malformed : Option Failure} {f : Flow Record Counters Line} (groups : f.feed.play.refused = [])
    (ran : run c processors input = outcome f malformed) :
    Makes c processors input malformed f where
  result := ran.trans (outcome_eq groups malformed)
  settles ops path output := by rw [runInto_eq_settle, ran]
  program opened := by rw [opened.run_program, ran]

end Ingest

end BatchPool
