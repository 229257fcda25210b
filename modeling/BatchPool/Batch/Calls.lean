import BatchPool.Batch.Basic

/-!
# Calls of a batch by several threads

Taking a group out and handing it to its handler are two steps, between which other threads may
go on with the same batch; and a handler may itself call the batch. `Calls` is the transition system
of all that: a batch, and for each thread the calls that it is in the middle of.

* `Frame`: a call that took out a group: before its handler was called, or inside the handler.
* `Calls.Move`: a step of a thread. Who moves next, what is pushed and how a handler ends is up to
  the surroundings.
* `Calls.move?`: the state after a move, where the move is possible.
* `Calls.history`: what happened, the newest first.
-/

namespace BatchPool

namespace Batch

/-- A call that took out a group and has not returned: its handler is still to be called, or is at
work. -/
inductive Frame (α H : Type) where
  | holding (handler : H) (group : List α)
  | serving (handler : H) (group : List α)
  deriving Repr, DecidableEq

/-- What happens in a batch. -/
inductive Event (α H : Type) where
  | appended (thread : Nat) (record : α)
  | taken (thread : Nat) (handler : H) (group : List α)
  | called (thread : Nat) (handler : H) (group : List α)
  | returned (thread : Nat) (reply : Reply)

/-- A batch with the calls that its threads are in the middle of, the innermost one first. Threads
that are in no call are not listed. -/
structure Calls (α H : Type) where
  batch : Batch α H := {}
  callStacks : List (Nat × List (Frame α H)) := []
  history : List (Event α H) := []

namespace Calls

variable {α H : Type}

/-- The calls that a thread is in the middle of, the innermost one first. -/
def stack (c : Calls α H) (thread : Nat) : List (Frame α H) := (c.callStacks.lookup thread).getD []

/-- The state with other calls for a thread. -/
def setStack (c : Calls α H) (thread : Nat) (frames : List (Frame α H)) : Calls α H :=
  let others := c.callStacks.filter fun s => s.1 != thread
  { c with callStacks := if frames.isEmpty then others else (thread, frames) :: others }

/-- The state after something happened. -/
def note (c : Calls α H) (event : Event α H) : Calls α H := { c with history := event :: c.history }

/-- A thread can start a call if it is in none, or inside a handler. -/
def mayCall (c : Calls α H) (thread : Nat) : Bool :=
  match c.stack thread with
  | [] => true
  | .serving _ _ :: _ => true
  | .holding _ _ :: _ => false

/-- A step of a thread, or a new initialisation while no thread is in a call. -/
inductive Move (α H : Type) where
  | push (thread : Nat) (record : α)
  | flush (thread : Nat)
  | enter (thread : Nat)
  | leave (thread : Nat) (outcome : Outcome)
  | init (capacity : Nat) (handlers : Handlers H)

/-- What the step of a call means for the thread: it returns, or it holds a group. -/
def settle (c : Calls α H) (thread : Nat) : Effect α H → Calls α H
  | .refused => c.note (.returned thread .uninitialized)
  | .kept => c.note (.returned thread .ok)
  | .taken handler group =>
    (c.setStack thread (.holding handler group :: c.stack thread)).note
      (.taken thread handler group)

/-- The state after a move, where the move is possible. -/
def move? (c : Calls α H) : Move α H → Option (Calls α H)
  | .push thread record =>
    if c.mayCall thread then
      let (effect, batch) := c.batch.push record
      let c' := match effect with
        | .refused => { c with batch := batch }
        | _ => { c with batch := batch }.note (.appended thread record)
      some (c'.settle thread effect)
    else none
  | .flush thread =>
    if c.mayCall thread then
      let (effect, batch) := c.batch.flush
      some ({ c with batch := batch }.settle thread effect)
    else none
  | .enter thread =>
    match c.stack thread with
    | .holding handler group :: rest =>
      some ((c.setStack thread (.serving handler group :: rest)).note
        (.called thread handler group))
    | _ => none
  | .leave thread outcome =>
    match c.stack thread with
    | .serving _ _ :: rest => some ((c.setStack thread rest).note (.returned thread outcome.reply))
    | _ => none
  | .init capacity handlers =>
    if c.callStacks.isEmpty then some { c with batch := c.batch.init capacity handlers } else none

/-! ## Small facts -/

theorem lookup_filter_ne {β : Type} (l : List (Nat × β)) {t u : Nat} (h : u ≠ t) :
    (l.filter fun s => s.1 != t).lookup u = l.lookup u := by
  induction l with
  | nil => rfl
  | cons s rest ih =>
    obtain ⟨k, b⟩ := s
    by_cases hk : k = t
    · have : (u == k) = false := by simp [hk, h]
      simp only [List.lookup_cons, this, ← ih]
      simp [hk]
    · simp [hk, List.lookup_cons, ih]

theorem lookup_filter_self (callStacks : List (Nat × List (Frame α H))) (t : Nat) :
    (callStacks.filter fun s => s.1 != t).lookup t = none := by
  induction callStacks with
  | nil => rfl
  | cons s rest ih =>
    obtain ⟨k, fs⟩ := s
    by_cases hk : k = t
    · simpa [hk] using ih
    · have : (t == k) = false := by simp [Ne.symm hk]
      simp [hk, List.lookup_cons, this, ih]

@[simp] theorem stack_setStack_self (c : Calls α H) (thread : Nat) (frames : List (Frame α H)) :
    (c.setStack thread frames).stack thread = frames := by
  cases frames with
  | nil => simp [setStack, stack, lookup_filter_self]
  | cons f fs => simp [setStack, stack]

theorem stack_setStack_ne (c : Calls α H) {thread other : Nat} (h : other ≠ thread)
    (frames : List (Frame α H)) : (c.setStack thread frames).stack other = c.stack other := by
  have : (other == thread) = false := by simp [h]
  cases frames with
  | nil => simp [setStack, stack, lookup_filter_ne _ h]
  | cons f fs => simp [setStack, stack, List.lookup_cons, this, lookup_filter_ne _ h]

@[simp] theorem batch_setStack (c : Calls α H) (thread : Nat) (frames : List (Frame α H)) :
    (c.setStack thread frames).batch = c.batch := rfl

@[simp] theorem stack_note (c : Calls α H) (event : Event α H) (thread : Nat) :
    (c.note event).stack thread = c.stack thread := rfl

@[simp] theorem batch_note (c : Calls α H) (event : Event α H) : (c.note event).batch = c.batch :=
  rfl

end Calls

end Batch

end BatchPool
