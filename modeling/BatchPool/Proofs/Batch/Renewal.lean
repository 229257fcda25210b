import Mathlib.Data.List.Perm.Subperm
import BatchPool.Proofs.Batch.Outcomes
import BatchPool.Proofs.Batch.Simulation

/-!
# Batches that are initialised again

An initialisation makes a batch a fresh one, whatever it was. What happened before is past: nobody
can tell the batch from a fresh one, and no record of before is left to be handed to anybody.

* `inStep_eq`: a batch goes in step with itself, whatever its past.
* `Conserved.among`: what handlers got, and what is buffered, is among what was pushed.
* `forgotten_of_moved`: the same, after calls that go on as those of a fresh batch.
* `run?_uninitialized`: before the first initialisation every call is refused.
* `Renewed`, `renewed`: what an initialisation comes to.
-/

namespace BatchPool

namespace Batch

open scoped List

variable {α H : Type}

theorem inStep_eq : InStep (@Batch.push α H) Batch.push Eq where
  view := by
    rintro b _ rfl
    rfl
  push := by
    rintro b _ rfl record
    exact ⟨rfl, rfl⟩
  flush := by
    rintro b _ rfl
    exact ⟨rfl, rfl⟩
  init := by
    rintro b _ rfl capacity hs
    rfl

namespace Calls

variable {capacity : Nat} {hs : Handlers H} {c d e : Calls α H} {moves : List (Move α H)}

theorem run?_eq_foldlM (c : Calls α H) (moves : List (Move α H)) :
    c.run? moves = moves.foldlM move? c := by
  induction moves generalizing c with
  | nil => rfl
  | cons m rest ih =>
    rw [run?, List.foldlM_cons]
    cases c.move? m with
    | none => rfl
    | some d => exact ih d

/-- Handlers are called with groups that were taken out for them. -/
theorem Conserved.called_subset (h : c.Conserved capacity hs) : c.called ⊆ c.taken := by
  intro x hx
  have mine : x ∈ ofThread x.thread c.called := List.mem_filter.2 ⟨hx, by simp⟩
  have taken : x ∈ ofThread x.thread c.taken := by
    rw [h.delivered]
    exact List.mem_append_left _ mine
  exact (List.mem_filter.1 taken).1

/-- What handlers were called with, and what is buffered, is among what was pushed. -/
theorem Conserved.among (h : c.Conserved capacity hs) (delivered : c.Delivered) :
    (c.called.map (·.group)).flatten ++ c.batch.records <+~ c.appended := by
  have groups : (c.taken.map (·.group)).flatten ~
      (c.called.map (·.group)).flatten ++ c.holding.flatten := by
    rw [← List.flatten_append]
    exact delivered.groups.flatten
  rw [← h.records]
  refine List.Subperm.trans ?_ (groups.append_right _).symm.subperm
  exact ((List.sublist_append_left ..).append_right _).subperm

/-! ## Before the first initialisation -/

/-- A batch that was not initialised refuses every call, and keeps nothing. -/
theorem run?_uninitialized (calls : List (Call α)) (none : c.batch.handlers = none)
    (idle : c.callStacks = []) :
    c.run? (calls.map Call.move) = some { c with
      history := (calls.map fun x => .returned x.thread .uninitialized).reverse ++ c.history } := by
  induction calls generalizing c with
  | nil => rfl
  | cons call rest ih =>
    have free : ∀ thread, c.mayCall thread = true := by simp [mayCall, stack, idle]
    have refused : c.move? call.move = some (c.note (.returned call.thread .uninitialized)) := by
      cases call with
      | push thread record =>
        simp [Call.move, Call.thread, move?, free, push_uninitialized none, settle]
      | flush thread =>
        simp [Call.move, Call.thread, move?, free, flush_uninitialized none, settle]
    rw [List.map_cons, run?, refused]
    refine (ih (c := c.note _) none idle).trans ?_
    simp [note]

/-! ## Initialisations -/

/-- What an initialisation makes of calls `c`, if it leads to `d`. -/
structure Renewed (capacity : Nat) (push : H) (flush : Option H) (c d : Calls α H) : Prop where
  /-- The batch is a fresh one. -/
  fresh : d.batch = .ofHandlers capacity (.given push flush) ∧
    (flush = none → d.batch = .ofHandler capacity push)
  /-- Whatever code is run, it comes to the same as with a fresh batch, and the same happens
  meanwhile. -/
  played : ∀ (σ β : Type) (handlers : H → List α → Code α σ Outcome) (depth : Nat)
      (actions : List (Action α H σ β)) (world : σ), ∃ values e f world',
    Scene.perform move? handlers depth actions
        ⟨{ batch := .ofHandlers capacity (.given push flush) }, world⟩ =
      (values, ⟨e, world'⟩) ∧
    Scene.perform move? handlers depth actions ⟨d, world⟩ = (values, ⟨f, world'⟩) ∧
    Follows Eq c.history e f
  /-- However threads go on, they go on as with a fresh batch. -/
  moved : ∀ moves, Option.Rel (Follows Eq c.history)
    (run? { batch := .ofHandlers capacity (.given push flush) } moves) (d.run? moves)
  /-- By calls only the handlers that are given are called; and what they are called with, and what
  is buffered, is among what was pushed since. -/
  forgotten : ∀ moves e, (∀ m ∈ moves, m.caller? ≠ none) → d.run? moves = some e →
    ∃ later, e.called = c.called ++ later ∧
      (∀ x ∈ later, x.handler = push ∨ x.handler = flush.getD push) ∧
      (later.map (·.group)).flatten ++ e.batch.records <+~ moves.filterMap Move.pushed?

/-- What was called and is buffered after calls that go on as those of a fresh batch. -/
theorem forgotten_of_moved {past : List (Event α H)} (calls : ∀ m ∈ moves, m.caller? ≠ none)
    (both : Option.Rel (Follows Eq past) (run? { batch := .ofHandlers capacity hs } moves)
      (some e)) :
    ∃ later, e.called = past.reverse.filterMap Event.called? ++ later ∧
      (∀ x ∈ later, x.handler = hs.push ∨ x.handler = hs.flush) ∧
      (later.map (·.group)).flatten ++ e.batch.records <+~ moves.filterMap Move.pushed? := by
  generalize hf : run? _ moves = fresh at both
  cases both with
  | @some f _ follows =>
    -- the laws of all calls hold of the fresh batch
    have begun := conserved_init ({} : Batch α H) capacity hs
    obtain ⟨conserved, pushes⟩ := begun.of_run calls hf
    have delivered : f.Delivered :=
      .of_run (c := { batch := _ }) ⟨List.nodup_nil, .nil⟩ begun calls hf
    refine ⟨f.called, follows.events _, ?_, ?_⟩
    · intro x hx
      obtain ⟨full, -⟩ | ⟨rest, -⟩ := conserved.groups x (conserved.called_subset hx)
      · exact .inl full
      · exact .inr rest
    · rw [← follows.batch]
      refine (conserved.among delivered).trans ?_
      rw [pushes]
      exact List.Subperm.refl _

/-- **An initialisation forgets everything**, and before the first one nothing is kept. -/
theorem renewed (c : Calls α H) (capacity : Nat) (push : H) (flush : Option H)
    (idle : c.callStacks = []) :
    (∃ d, c.move? (.init capacity (.given push flush)) = some d ∧
        Renewed capacity push flush c d) ∧
      ∀ calls : List (Call α), run? ({} : Calls α H) (calls.map Call.move) =
        some { history := (calls.map fun x => .returned x.thread .uninitialized).reverse } := by
  have start : Follows Eq c.history { batch := .ofHandlers capacity (.given push flush) }
      { c with batch := c.batch.init capacity (.given push flush) } := ⟨rfl, idle, rfl⟩
  have simulates := inStep_eq.simulates c.history
  rw [moveBy?_push] at simulates
  have moved := simulates.moves start
  simp only [← run?_eq_foldlM] at moved
  refine ⟨⟨_, if_pos (by rw [idle]; rfl), ⟨rfl, ?_⟩, ?_, moved, ?_⟩, ?_⟩
  · rintro rfl
    rfl
  · intro σ β handlers depth actions world
    exact simulates.perform handlers depth actions _ _ world start
  · intro moves e calls hr
    exact forgotten_of_moved calls (hr ▸ moved moves)
  · intro calls
    simpa using run?_uninitialized (c := ({} : Calls α H)) calls rfl rfl

/-- Groups of two, the handler of which panicked, and then another record, which is forgotten with
the handlers. -/
theorem renewed_partlyFilled :
    ∃ c : Calls Nat String,
      run? { batch := .ofHandlers 2 (.given "full" (some "rest")) }
        [.push 0 1, .push 0 2, .enter 0, .leave 0 (.panicked none), .push 0 3] = some c ∧
      c.batch.records = [3] ∧
      ∃ d, c.move? (.init 1 (.given "all" none)) = some d ∧ Renewed 1 "all" none c d :=
  ⟨_, rfl, rfl, (renewed _ 1 "all" none rfl).1⟩

end Calls

end Batch

end BatchPool
