import BatchPool.Config
import BatchPool.Outcome

/-!
# Batches

A batch collects single records into groups of a fixed size. What a call does to the batch is one
step under its lock; the group that the step takes out is handed to a handler afterwards, outside the
lock, so no handler can change what the step did.

* `Batch`: capacity, handlers and buffer. Before it was initialised a batch refuses everything.
* `Batch.push`, `Batch.flush`: the step of a call, with its `Effect`.
* `Reply`: what a call comes to; `Effect.reply` says how, given the outcome of the handler.
-/

namespace BatchPool

/-- The handlers of a batch: one for full groups and one for flushed ones. -/
structure Handlers (H : Type) where
  push : H
  flush : H
  deriving Repr, DecidableEq

/-- The handlers of a batch. Where none is given for flushed groups, they go where full ones go. -/
def Handlers.given {H : Type} (push : H) (flush : Option H) : Handlers H :=
  { push := push, flush := flush.getD push }

/-- A batch of records `α` whose handlers are known as `H`. The buffer is made by the first record
that needs it. -/
structure Batch (α H : Type) where
  capacity : Nat := 0
  handlers : Option (Handlers H) := none
  buffer : Option (List α) := none
  deriving Repr, DecidableEq

/-- What a call does under the lock: it is refused, it keeps its record, or it takes out a group for
a handler. -/
inductive Effect (α H : Type) where
  | refused
  | kept
  | taken (handler : H) (group : List α)
  deriving Repr, DecidableEq

/-- What a call of a batch comes to. -/
inductive Reply where
  | ok
  | uninitialized
  | failed (failure : Failure)
  | panicked (text : Option String)

/-- A handler's outcome is its caller's reply. -/
def Outcome.reply : Outcome → Reply
  | .done => .ok
  | .failed failure => .failed failure
  | .panicked text => .panicked text

namespace Outcome

variable {outcome : Outcome}

@[simp] theorem reply_eq_ok : outcome.reply = .ok ↔ outcome = .done := by
  cases outcome <;> simp [reply]

@[simp] theorem reply_eq_failed {failure : Failure} :
    outcome.reply = .failed failure ↔ outcome = .failed failure := by
  cases outcome <;> simp [reply]

@[simp] theorem reply_eq_panicked {text : Option String} :
    outcome.reply = .panicked text ↔ outcome = .panicked text := by
  cases outcome <;> simp [reply]

end Outcome

namespace Batch

variable {α H : Type}

/-- The batch after (re)initialisation: nothing of what it was before is left. -/
def init (_ : Batch α H) (capacity : Nat) (handlers : Handlers H) : Batch α H :=
  { capacity := effectiveSize capacity, handlers := some handlers, buffer := none }

/-- A batch whose full and flushed groups go to the given handlers. -/
def ofHandlers (capacity : Nat) (handlers : Handlers H) : Batch α H :=
  ({} : Batch α H).init capacity handlers

/-- A batch whose groups all go to one handler. -/
def ofHandler (capacity : Nat) (handler : H) : Batch α H :=
  ofHandlers capacity { push := handler, flush := handler }

/-- The records that are buffered. -/
def records (b : Batch α H) : List α := b.buffer.getD []

/-- How many records are buffered. -/
def position (b : Batch α H) : Nat := b.records.length

/-- The batch takes records. -/
def isInitialized (b : Batch α H) : Bool := b.handlers.isSome

/-- The step of a push. A batch of capacity one passes the record on without buffering it; any other
buffers it, and takes the buffer out once it is full. -/
def push (b : Batch α H) (record : α) : Effect α H × Batch α H :=
  match b.handlers with
  | none => (.refused, b)
  | some hs =>
    if b.capacity = 1 then (.taken hs.push [record], b)
    else
      let items := b.records ++ [record]
      if items.length < b.capacity then (.kept, { b with buffer := some items })
      else (.taken hs.push items, { b with buffer := some [] })

/-- The step of a flush: takes out what is buffered, if anything is. -/
def flush (b : Batch α H) : Effect α H × Batch α H :=
  match b.handlers with
  | none => (.refused, b)
  | some hs =>
    if b.records = [] then (.kept, b)
    else (.taken hs.flush b.records, { b with buffer := some [] })

/-- A batch as it is shown in messages. -/
def debug (b : Batch α H) : String :=
  "Batch \x7b capacity: " ++ toString b.capacity ++ ", position: " ++ toString b.position ++
    ", initialized: " ++ toString b.isInitialized ++ " \x7d"

/-! ## Small facts -/

theorem push_uninitialized {b : Batch α H} (h : b.handlers = none) (record : α) :
    b.push record = (.refused, b) := by
  simp [push, h]

theorem flush_uninitialized {b : Batch α H} (h : b.handlers = none) : b.flush = (.refused, b) := by
  simp [flush, h]

/-- A step changes neither the capacity nor the handlers. -/
theorem push_fixed (b : Batch α H) (record : α) :
    (b.push record).2.capacity = b.capacity ∧ (b.push record).2.handlers = b.handlers := by
  unfold push
  split
  · simp
  · split
    · simp
    · dsimp only
      split <;> simp

theorem flush_fixed (b : Batch α H) :
    b.flush.2.capacity = b.capacity ∧ b.flush.2.handlers = b.handlers := by
  unfold flush
  split
  · simp
  · split <;> simp

end Batch

end BatchPool
