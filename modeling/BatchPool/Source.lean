import BatchPool.Config

/-!
# Sources of groups

A source serves a list in groups, from the first to the last, to a function that may stop it.

* `chunks`: a list cut into groups of a size; only the last one may be shorter.
* `GroupInfo`: where a group stands in the whole.
* `Source`: a list with a group size, open or finalized. `Source.ofItems` and `Source.ofBytes` differ
  in what a size of zero stands for.
* `Source.pass`: one pass over the groups. It does not change the source.
-/

namespace BatchPool

/-- The first `size` items, then the next, and so on. With a size of zero there are no groups. -/
def chunks {α : Type} (size : Nat) (items : List α) : List (List α) :=
  if _h : size = 0 ∨ items = [] then []
  else items.take size :: chunks size (items.drop size)
termination_by items.length
decreasing_by
  have : 0 < items.length := List.length_pos_iff.mpr fun e => _h (.inr e)
  simp
  omega

@[simp] theorem chunks_nil {α : Type} (size : Nat) : chunks size ([] : List α) = [] := by
  rw [chunks]
  simp

/-- Nothing is lost and nothing moves. -/
theorem flatten_chunks {α : Type} {size : Nat} (hs : size ≠ 0) (items : List α) :
    (chunks size items).flatten = items := by
  fun_induction chunks size items with
  | case1 items h =>
    rcases h with h | h
    · exact absurd h hs
    · simp [h]
  | case2 items h ih => simp [ih]

/-- Where a group stands in the whole. -/
structure GroupInfo where
  index : Nat
  groupSize : Nat
  total : Nat
  deriving Repr, DecidableEq

/-- A list that is served in groups of `groupSize`. -/
structure Source (α : Type) where
  items : List α
  groupSize : Nat
  finalized : Bool := false
  deriving Repr, DecidableEq

/-- How a pass ends. -/
inductive Pass (ε : Type) where
  | complete
  | stopped (reason : ε)
  | refused
  deriving Repr, DecidableEq

namespace Source

variable {α ε : Type}

/-- A source of items. A group size of zero stands for the default. -/
def ofItems (items : List α) (size : Nat) : Source α :=
  { items := items, groupSize := effectiveSize size }

/-- A source of bytes. A chunk size of zero stands for one. -/
def ofBytes (bytes : Bytes) (size : Nat) : Source UInt8 :=
  { items := bytes, groupSize := max size 1 }

/-- The source after it released what it held. -/
def finalize (s : Source α) : Source α := { s with finalized := true }

/-- Serves groups in order, the first of them being number `index`. Stops at the first group that the
function refuses. -/
def serve {m : Type → Type} [Monad m] (size total : Nat) (f : List α → GroupInfo → m (Except ε Unit)) :
    (index : Nat) → List (List α) → m (Pass ε)
  | _, [] => return .complete
  | index, group :: rest => do
    match ← f group { index := index, groupSize := size, total := total } with
    | .ok () => serve size total f (index + 1) rest
    | .error reason => return .stopped reason

/-- One pass over the groups. -/
def pass {m : Type → Type} [Monad m] (s : Source α) (f : List α → GroupInfo → m (Except ε Unit)) :
    m (Pass ε) :=
  if s.finalized then return .refused
  else serve s.groupSize s.items.length f 0 (chunks s.groupSize s.items)

/-- The text of a refused pass. -/
def refusal : String := "source is already finalized"

/-- A source as it is shown in messages, from the names of its parts. -/
def debug (name itemsName sizeName : String) (item : α → String) (s : Source α) : String :=
  name ++ " \x7b " ++ itemsName ++ ": [" ++ ", ".intercalate (s.items.map item) ++ "], " ++
    sizeName ++ ": " ++ toString s.groupSize ++ ", finalized: " ++ toString s.finalized ++ " \x7d"

end Source

end BatchPool
