import BatchPool.Batch.Code
import BatchPool.Proofs.Batch.Conservation

/-!
# Batches that code cannot tell apart

Let moves be made in two ways that keep two states of calls related. If the same can be seen of
related states, then no code can tell the two ways apart, however handlers call their batch.

* `Calls.Simulates`: what the two ways have to have in common.
* `Simulates.moves`: lists of moves, of any threads.
* `Scene.Agree`: two computations that come to the same.
* `Simulates.run_of`: no code tells them apart, by induction on the code; `Simulates.served`: nor do
  handlers, by induction on how deep they call.
* `Scene.perform`: code is run and the batch is initialised, one after the other.
* `InStep`: two batches whose steps correspond. `InStep.simulates`: nobody can tell calls of the one
  from calls of the other.
-/

namespace BatchPool

namespace Batch

variable {α H σ β γ : Type}

namespace Calls

/-- Two ways of making moves keep states related, and the same is seen of related states. -/
structure Simulates (step step' : Calls α H → Move α H → Option (Calls α H))
    (R : Calls α H → Calls α H → Prop) : Prop where
  view : ∀ {c d}, R c d → d.batch.view = c.batch.view
  stack : ∀ {c d}, R c d → ∀ thread, d.stack thread = c.stack thread
  next : ∀ {c d}, R c d → ∀ m, Option.Rel R (step c m) (step' d m)
  reply : ∀ {c d c' d' m}, R c d → m.caller? ≠ none → step c m = some c' → step' d m = some d' →
    d'.lastReply = c'.lastReply

/-- A list of moves keeps states related, as one move does. -/
theorem Simulates.moves {step step' : Calls α H → Move α H → Option (Calls α H)}
    {R : Calls α H → Calls α H → Prop} {c d : Calls α H} (h : Simulates step step' R)
    (related : R c d) (moves : List (Move α H)) :
    Option.Rel R (moves.foldlM step c) (moves.foldlM step' d) := by
  induction moves generalizing c d with
  | nil => exact .some related
  | cons m rest ih =>
    rw [List.foldlM_cons, List.foldlM_cons]
    match step c m, step' d m, h.next related m with
    | none, none, .none => exact .none
    | some c', some d', .some related => exact ih related

end Calls

namespace Scene

/-- Two computations in related states and in the same world come to the same, and leave related
states and the same world behind. -/
def Agree (R : Calls α H → Calls α H → Prop) (x y : StateM (Scene α H σ) β) : Prop :=
  ∀ c d w, R c d → ∃ value c' d' w', x ⟨c, w⟩ = (value, ⟨c', w'⟩) ∧ y ⟨d, w⟩ = (value, ⟨d', w'⟩) ∧
    R c' d'

variable {R : Calls α H → Calls α H → Prop} {x y : StateM (Scene α H σ) β}
  {k l : β → StateM (Scene α H σ) γ}

theorem Agree.pure (value : β) :
    Agree R (Pure.pure value : StateM (Scene α H σ) β) (Pure.pure value) :=
  fun c d w related => ⟨value, c, d, w, rfl, rfl, related⟩

theorem Agree.bind (first : Agree R x y) (later : ∀ value, Agree R (k value) (l value)) :
    Agree R (x >>= k) (y >>= l) := by
  intro c d w related
  obtain ⟨value, c', d', w', hx, hy, related⟩ := first c d w related
  obtain ⟨result, c', d', w', hk, hl, related⟩ := later value c' d' w' related
  exact ⟨result, c', d', w', (bind_of_run hx).trans hk, (bind_of_run hy).trans hl, related⟩

end Scene

namespace Calls

open Scene

variable {step step' : Calls α H → Move α H → Option (Calls α H)} {R : Calls α H → Calls α H → Prop}
  {play play' : H → List α → StateM (Scene α H σ) Outcome} {m : Move α H}

theorem Simulates.move (h : Simulates step step' R) (m : Move α H) :
    Agree R (Scene.move step m : StateM (Scene α H σ) Unit) (Scene.move step' m) := by
  intro c d w related
  match hc : step c m, hd : step' d m, h.next related m with
  | none, none, .none =>
    exact ⟨(), c, d, w, move_of_none hc, move_of_none hd, related⟩
  | some c', some d', .some related =>
    exact ⟨(), c', d', w, move_of_some hc, move_of_some hd, related⟩

/-- A call comes to the same, if handlers do. -/
theorem Simulates.call (h : Simulates step step' R) (thread : Nat)
    (handled : ∀ handler group, Agree R (play handler group) (play' handler group))
    (m : Move α H) (call : m.caller? ≠ none) :
    Agree R (Scene.call step play thread m) (Scene.call step' play' thread m) := by
  intro c d w related
  match hc : step c m, hd : step' d m, h.next related m with
  | none, none, .none =>
    exact ⟨.panicked none, c, d, w, call_of_none hc, call_of_none hd, related⟩
  | some c', some d', .some after =>
    have stack := h.stack after thread
    by_cases holds : ∃ handler group rest, c'.stack thread = .holding handler group :: rest
    · obtain ⟨handler, group, rest, holding⟩ := holds
      rw [call_of_holding hc holding, call_of_holding hd (stack.trans holding)]
      refine ((h.move (.enter thread)).bind fun _ => (handled handler group).bind fun outcome =>
        (h.move (.leave thread outcome)).bind fun _ => ?_) c' d' w after
      exact .pure outcome.reply
    · have top : ∀ handler group rest, c'.stack thread ≠ .holding handler group :: rest :=
        fun handler group rest holding => holds ⟨handler, group, rest, holding⟩
      refine ⟨c'.lastReply, c', d', w, call_of_returned hc top, ?_, after⟩
      rw [← h.reply related call hc hd]
      exact call_of_returned hd fun handler group rest => stack ▸ top handler group rest

/-- **No code can tell them apart**, if handlers do the same. -/
theorem Simulates.run_of (h : Simulates step step' R) (thread : Nat)
    (handled : ∀ handler group, Agree R (play handler group) (play' handler group))
    (code : Code α σ β) :
    Agree R (code.run step play thread) (code.run step' play' thread) := by
  induction code with
  | ends value => exact .pure value
  | push record next ih => exact (h.call thread handled (.push thread record) nofun).bind ih
  | flush next ih => exact (h.call thread handled (.flush thread) nofun).bind ih
  | look next ih =>
    intro c d w related
    obtain ⟨value, c', d', w', hx, hy, related'⟩ := ih c.batch.view c d w related
    refine ⟨value, c', d', w', hx, ?_, related'⟩
    rw [← h.view related] at hy
    exact hy
  | read next ih => exact fun c d w related => ih w c d w related
  | write world next ih => exact fun c d w related => ih c d world related

/-- Handlers that are code do the same, however deep they call their batch. -/
theorem Simulates.served (h : Simulates step step' R) (handlers : H → List α → Code α σ Outcome)
    (thread depth : Nat) (handler : H) (group : List α) :
    Agree R (Scene.play step handlers thread depth handler group)
      (Scene.play step' handlers thread depth handler group) := by
  induction depth generalizing handler group with
  | zero => exact .pure (Outcome.panicked none)
  | succ depth ih => exact h.run_of thread ih (handlers handler group)

end Calls

/-- What is done with a batch from outside: a thread runs code, or the batch is initialised. -/
inductive Action (α H σ β : Type) where
  | run (thread : Nat) (code : Code α σ β)
  | init (capacity : Nat) (handlers : Handlers H)

/-- Does one thing after another, and tells what the code came to. -/
def Scene.perform (step : Calls α H → Calls.Move α H → Option (Calls α H))
    (handlers : H → List α → Code α σ Outcome) (depth : Nat) :
    List (Action α H σ β) → StateM (Scene α H σ) (List β)
  | [] => return []
  | .run thread code :: rest => do
    let value ← code.run step (Scene.play step handlers thread depth) thread
    return value :: (← perform step handlers depth rest)
  | .init capacity hs :: rest => do
    Scene.move step (.init capacity hs)
    perform step handlers depth rest

/-- **Nobody can tell them apart.** -/
theorem Calls.Simulates.perform {step step' : Calls α H → Move α H → Option (Calls α H)}
    {R : Calls α H → Calls α H → Prop} (h : Simulates step step' R)
    (handlers : H → List α → Code α σ Outcome) (depth : Nat) (actions : List (Action α H σ β)) :
    Scene.Agree R (Scene.perform step handlers depth actions)
      (Scene.perform step' handlers depth actions) := by
  induction actions with
  | nil => exact .pure []
  | cons action rest ih =>
    cases action with
    | run thread code =>
      exact (h.run_of thread (h.served handlers thread depth) code).bind fun value =>
        ih.bind fun values => .pure (value :: values)
    | init capacity hs => exact (h.move _).bind fun _ => ih

/-! ## Batches in step -/

/-- The state after a move, for another step of a push. -/
def Calls.moveBy? (push : Batch α H → α → Effect α H × Batch α H) (c : Calls α H) :
    Calls.Move α H → Option (Calls α H)
  | .push thread record =>
    if c.mayCall thread then
      let (effect, batch) := push c.batch record
      let c' := match effect with
        | .refused => { c with batch := batch }
        | _ => { c with batch := batch }.note (.appended thread record)
      some (c'.settle thread effect)
    else none
  | m => c.move? m

theorem Calls.moveBy?_push : Calls.moveBy? (@Batch.push α H) = Calls.move? := by
  funext c m
  cases m <;> rfl

/-- Two batches go in step: calls have the same effects on both, and the same is seen of both. -/
structure InStep (push push' : Batch α H → α → Effect α H × Batch α H)
    (B : Batch α H → Batch α H → Prop) : Prop where
  view : ∀ {b b'}, B b b' → b'.view = b.view
  push : ∀ {b b'}, B b b' → ∀ record,
    (push' b' record).1 = (push b record).1 ∧ B (push b record).2 (push' b' record).2
  flush : ∀ {b b'}, B b b' → b'.flush.1 = b.flush.1 ∧ B b.flush.2 b'.flush.2
  init : ∀ {b b'}, B b b' → ∀ capacity hs, B (b.init capacity hs) (b'.init capacity hs)

namespace Calls

/-- The same is going on in two related batches, and the same has happened, except that the second
one has a past. -/
structure Follows (B : Batch α H → Batch α H → Prop) (past : List (Event α H)) (c d : Calls α H) :
    Prop where
  batch : B c.batch d.batch
  callStacks : d.callStacks = c.callStacks
  history : d.history = c.history ++ past

namespace Follows

variable {B : Batch α H → Batch α H → Prop} {past : List (Event α H)} {c d : Calls α H}
  {push push' : Batch α H → α → Effect α H × Batch α H}

theorem stack (h : Follows B past c d) (thread : Nat) : d.stack thread = c.stack thread := by
  rw [Calls.stack, Calls.stack, h.callStacks]

theorem mayCall (h : Follows B past c d) (thread : Nat) :
    d.mayCall thread = c.mayCall thread := by
  rw [Calls.mayCall, Calls.mayCall, h.stack]

theorem events (h : Follows B past c d) (f : Event α H → Option β) :
    d.events f = past.reverse.filterMap f ++ c.events f := by
  rw [Calls.events, Calls.events, h.history, List.reverse_append, List.filterMap_append]

theorem note (h : Follows B past c d) (event : Event α H) :
    Follows B past (c.note event) (d.note event) where
  batch := h.batch
  callStacks := h.callStacks
  history := congrArg (event :: ·) h.history

theorem setStack (h : Follows B past c d) (thread : Nat) (frames : List (Frame α H)) :
    Follows B past (c.setStack thread frames) (d.setStack thread frames) where
  batch := h.batch
  callStacks := by simp only [Calls.setStack, h.callStacks]
  history := h.history

theorem withBatch (h : Follows B past c d) {b b' : Batch α H} (batch : B b b') :
    Follows B past { c with batch := b } { d with batch := b' } :=
  ⟨batch, h.callStacks, h.history⟩

theorem settle (h : Follows B past c d) (thread : Nat) (effect : Effect α H) :
    Follows B past (c.settle thread effect) (d.settle thread effect) := by
  cases effect with
  | refused | kept => exact h.note _
  | taken handler group =>
    simp only [Calls.settle, h.stack]
    exact (h.setStack _ _).note _

theorem pushed (step : InStep push push' B) (h : Follows B past c d) (thread : Nat) (record : α) :
    Option.Rel (Follows B past) (c.moveBy? push (.push thread record))
      (d.moveBy? push' (.push thread record)) := by
  obtain ⟨effect, batch⟩ := step.push h.batch record
  have after := h.withBatch batch
  simp only [moveBy?, h.mayCall, effect]
  by_cases free : c.mayCall thread = true
  · rw [if_pos free, if_pos free]
    refine .some (settle ?_ thread _)
    cases (push c.batch record).1 with
    | refused => exact after
    | kept | taken => exact after.note _
  · rw [if_neg free, if_neg free]
    exact .none

/-- **A move goes on in the same way.** -/
theorem next (step : InStep push push' B) (h : Follows B past c d) (m : Move α H) :
    Option.Rel (Follows B past) (c.moveBy? push m) (d.moveBy? push' m) := by
  cases m with
  | push thread record => exact h.pushed step thread record
  | flush thread =>
    obtain ⟨effect, batch⟩ := step.flush h.batch
    simp only [moveBy?, move?, h.mayCall, effect]
    split
    · exact .some (settle (h.withBatch batch) thread _)
    · exact .none
  | enter thread =>
    simp only [moveBy?, move?, h.stack]
    split
    · exact .some ((h.setStack _ _).note _)
    · exact .none
  | leave thread outcome =>
    simp only [moveBy?, move?, h.stack]
    split
    · exact .some ((h.setStack _ _).note _)
    · exact .none
  | init capacity hs =>
    simp only [moveBy?, move?, h.callStacks]
    split
    · exact .some ⟨step.init h.batch capacity hs, rfl, h.history⟩
    · exact .none

theorem lastReply (h : Follows B past c d) (some : c.history ≠ []) : d.lastReply = c.lastReply := by
  obtain ⟨event, older, eq⟩ := List.exists_cons_of_ne_nil some
  rw [Calls.lastReply, Calls.lastReply, h.history, eq]
  cases event <;> rfl

end Follows

theorem settle_history (c : Calls α H) (thread : Nat) (effect : Effect α H) :
    (c.settle thread effect).history ≠ [] := by
  cases effect <;> exact List.cons_ne_nil _ _

/-- Calls do not go unnoticed. -/
theorem history_of_call {push : Batch α H → α → Effect α H × Batch α H} {c d : Calls α H}
    {m : Move α H} (call : m.caller? ≠ none) (h : c.moveBy? push m = some d) : d.history ≠ [] := by
  cases m with
  | push thread record =>
    simp only [moveBy?] at h
    split at h
    · cases h
      exact settle_history _ _ _
    · cases h
  | flush thread =>
    simp only [moveBy?, move?] at h
    split at h
    · cases h
      exact settle_history _ _ _
    · cases h
  | enter | leave =>
    simp only [moveBy?, move?] at h
    split at h
    · cases h
      exact List.cons_ne_nil _ _
    · cases h
  | init => exact absurd rfl call

end Calls

/-- **Nobody can tell calls of batches that go in step**, whatever happened to the second one
before. -/
theorem InStep.simulates {push push' : Batch α H → α → Effect α H × Batch α H}
    {B : Batch α H → Batch α H → Prop} (h : InStep push push' B) (past : List (Event α H)) :
    Calls.Simulates (Calls.moveBy? push) (Calls.moveBy? push') (Calls.Follows B past) where
  view related := h.view related.batch
  stack related := related.stack
  next related m := related.next h m
  reply {_ _ _ _ m} related call hc hd := by
    have after := related.next h m
    rw [hc, hd] at after
    cases after with
    | some after => exact after.lastReply (Calls.history_of_call call hc)

end Batch

end BatchPool
