import BatchPool.Batch.Calls
import BatchPool.Batch.Transfer

/-!
# Code that uses a batch

Whoever holds a batch calls it, looks at it, and goes on with what came of it. A handler does the
same from inside a call. Both are code; a call of the batch runs the code of the handler in its
midst.

* `Code`: what code does, one thing after another.
* `Scene`: the calls of a batch, and the world around it, which callers and handlers share.
* `Scene.call`: a call, played to its end; `Scene.play`: handlers that are code.
* `Code.run`: code, run to its end.
-/

namespace BatchPool

namespace Batch

/-- What can be seen of a batch from outside. -/
structure View where
  position : Nat
  capacity : Nat
  initialized : Bool
  debug : String
  deriving Repr, DecidableEq

/-- What is seen of the batch. -/
def view {α H : Type} (b : Batch α H) : View :=
  { position := b.position, capacity := b.capacity, initialized := b.isInitialized, debug := b.debug }

/-- What code does with a batch of records `α` in a world `σ`: it comes to a value; or it calls the
batch, looks at it, or reads or writes the world, and goes on with what it is told. -/
inductive Code (α σ β : Type) where
  | ends (value : β)
  | push (record : α) (next : Reply → Code α σ β)
  | flush (next : Reply → Code α σ β)
  | look (next : View → Code α σ β)
  | read (next : σ → Code α σ β)
  | write (world : σ) (next : Code α σ β)

namespace Code

variable {α σ β γ : Type}

/-- One piece of code after another. -/
def bind : Code α σ β → (β → Code α σ γ) → Code α σ γ
  | ends value, k => k value
  | push record next, k => push record fun reply => (next reply).bind k
  | flush next, k => flush fun reply => (next reply).bind k
  | look next, k => look fun view => (next view).bind k
  | read next, k => read fun world => (next world).bind k
  | write world next, k => write world (next.bind k)

instance : Monad (Code α σ) where
  pure := ends
  bind := bind

instance : MonadStateOf σ (Code α σ) where
  get := read ends
  set world := write world (ends ())
  modifyGet f := read fun world => write (f world).2 (ends (f world).1)

/-- Pushes a record. -/
def pushing (record : α) : Code α σ Reply := push record ends

/-- Flushes the batch. -/
def flushing : Code α σ Reply := flush ends

/-- Pushes every record of a source, and flushes the batch. -/
def transferring (source : Source α) : Code α σ Transferred := transfer pushing flushing source

/-- Code that has only to do with the world, not with the batch. -/
def aside (x : StateM σ β) : Code α σ β := modifyGet x

end Code

/-- The reply of a call that returned at once. -/
def Calls.lastReply {α H : Type} (c : Calls α H) : Reply :=
  match c.history with
  | .returned _ reply :: _ => reply
  | _ => .ok

/-- The calls of a batch, and the world around it. -/
structure Scene (α H σ : Type) where
  calls : Calls α H := {}
  world : σ := by exact {}

/-! ## Playing calls

`step` says what a move does. It is `Calls.move?` for batches as they are. -/

section Play

variable {α H σ β : Type} (step : Calls α H → Calls.Move α H → Option (Calls α H))

/-- Makes a move, where it is possible. -/
def Scene.move (m : Calls.Move α H) : StateM (Scene α H σ) Unit :=
  modify fun s =>
    match step s.calls m with
    | some calls => { s with calls := calls }
    | none => s

/-- Plays a call of a thread, given how handlers are played: if the call took out a group, its
handler is called and the call returns with the handler's outcome. A thread that has a group in its
hands makes no other call. -/
def Scene.call (play : H → List α → StateM (Scene α H σ) Outcome) (thread : Nat)
    (m : Calls.Move α H) : StateM (Scene α H σ) Reply := do
  let s ← get
  match step s.calls m with
  | none => return .panicked none
  | some calls =>
    set { s with calls := calls }
    match calls.stack thread with
    | .holding handler group :: _ =>
      Scene.move step (.enter thread)
      let outcome ← play handler group
      Scene.move step (.leave thread outcome)
      return outcome.reply
    | _ => return calls.lastReply

/-- Runs code of a thread, given how handlers are played. -/
def Code.run (play : H → List α → StateM (Scene α H σ) Outcome) (thread : Nat) :
    Code α σ β → StateM (Scene α H σ) β
  | .ends value => return value
  | .push record next => do
    run play thread (next (← Scene.call step play thread (.push thread record)))
  | .flush next => do run play thread (next (← Scene.call step play thread (.flush thread)))
  | .look next => do run play thread (next (← get).calls.batch.view)
  | .read next => do run play thread (next (← get).world)
  | .write world next => do
    modify fun s => { s with world := world }
    run play thread next

/-- Plays handlers that are code. `depth` bounds how deep they call their own batch; a call that goes
deeper ends as one does that has no room left on the stack. -/
def Scene.play (handlers : H → List α → Code α σ Outcome) (thread : Nat) :
    (depth : Nat) → H → List α → StateM (Scene α H σ) Outcome
  | 0, _, _ => return .panicked none
  | depth + 1, handler, group => (handlers handler group).run step (play handlers thread depth) thread

end Play

/-! ## Small facts -/

namespace Code

variable {α H σ β γ δ : Type}

theorem bind_ends (x : Code α σ β) : x.bind ends = x := by
  induction x with
  | ends => rfl
  | write world next ih => rw [bind, ih]
  | push _ next ih | flush next ih | look next ih | read next ih =>
    rw [bind]
    congr 1
    exact funext ih

protected theorem bind_assoc (x : Code α σ β) (f : β → Code α σ γ) (g : γ → Code α σ δ) :
    (x.bind f).bind g = x.bind fun value => (f value).bind g := by
  induction x with
  | ends => rfl
  | write world next ih => simp only [bind, ih]
  | push _ next ih | flush next ih | look next ih | read next ih =>
    simp only [bind]
    congr 1
    exact funext ih

instance : LawfulMonad (Code α σ) :=
  LawfulMonad.mk' _ bind_ends (fun _ _ => rfl) Code.bind_assoc

/-- Code runs one piece after another. -/
theorem run_bind (step : Calls α H → Calls.Move α H → Option (Calls α H))
    (play : H → List α → StateM (Scene α H σ) Outcome) (thread : Nat) (x : Code α σ β)
    (k : β → Code α σ γ) :
    (x >>= k).run step play thread =
      (x.run step play thread >>= fun value => (k value).run step play thread) := by
  show (x.bind k).run step play thread = _
  induction x with
  | ends => rfl
  | write world next ih => simp only [bind, run, ih, bind_assoc]
  | push _ next ih | flush next ih | look next ih | read next ih =>
    simp only [bind, run, ih, bind_assoc]

end Code

namespace Scene

variable {α H σ : Type} {step : Calls α H → Calls.Move α H → Option (Calls α H)}
  {play : H → List α → StateM (Scene α H σ) Outcome} {thread : Nat} {m : Calls.Move α H}
  {c d : Calls α H} {w : σ} {handler : H} {group : List α} {rest : List (Frame α H)}

theorem modify_apply {S : Type} (f : S → S) (s : S) : (modify f : StateM S PUnit) s = ((), f s) := rfl

theorem set_apply {S : Type} (s t : S) : (set t : StateM S PUnit) s = ((), t) := rfl

theorem move_of_some (hm : step c m = some d) : move step m ⟨c, w⟩ = ((), ⟨d, w⟩) := by
  simp only [move, modify_apply, hm]

theorem move_of_none (hm : step c m = none) : move step m ⟨c, w⟩ = ((), ⟨c, w⟩) := by
  simp only [move, modify_apply, hm]

theorem call_of_none (hm : step c m = none) :
    call step play thread m ⟨c, w⟩ = (.panicked none, ⟨c, w⟩) := by
  simp only [call, bind, StateT.bind, get, getThe, MonadStateOf.get, StateT.get, pure, hm]
  rfl

theorem call_of_returned (hm : step c m = some d)
    (top : ∀ handler group rest, d.stack thread ≠ .holding handler group :: rest) :
    call step play thread m ⟨c, w⟩ = (d.lastReply, ⟨d, w⟩) := by
  simp only [call, bind, StateT.bind, get, getThe, MonadStateOf.get, StateT.get, set_apply, pure, hm]
  rfl

theorem call_of_holding (hm : step c m = some d)
    (holding : d.stack thread = .holding handler group :: rest) :
    call step play thread m ⟨c, w⟩ =
      (do
        move step (.enter thread)
        let outcome ← play handler group
        move step (.leave thread outcome)
        return outcome.reply : StateM (Scene α H σ) Reply) ⟨d, w⟩ := by
  simp only [call, bind, StateT.bind, get, getThe, MonadStateOf.get, StateT.get, set_apply, pure, hm,
    holding]

/-- A computation goes on with what its first part comes to. -/
theorem bind_of_run {S β γ : Type} {x : StateM S β} {k : β → StateM S γ} {value : β} {s t : S}
    (h : x s = (value, t)) : (x >>= k) s = k value t := by
  show (match x s with | (value, t) => k value t) = _
  rw [h]

end Scene

end Batch

end BatchPool
