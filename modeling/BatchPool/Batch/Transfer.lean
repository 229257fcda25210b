import BatchPool.Batch.Basic
import BatchPool.Source

/-!
# From a source into a batch

* `Batch.transfer`: pushes every record that a source serves, then flushes. The first call that does
  not succeed ends it.
* `Batch.Transferred`: what it comes to.
-/

namespace BatchPool

namespace Batch

/-- What a transfer comes to: all records were pushed, the source refused, or a call ended it. -/
inductive Transferred where
  | pushed (count : Nat)
  | refused
  | stopped (reply : Reply)

variable {α : Type} {m : Type → Type} [Monad m]

/-- Pushes records in order, counting those that were taken, up to the first that is not. -/
def pushAll (push : α → m Reply) : List α → StateT Nat m (Except Reply Unit)
  | [] => return .ok ()
  | record :: rest => do
    match ← push record with
    | .ok =>
      modify (· + 1)
      pushAll push rest
    | reply => return .error reply

/-- Pushes every record that a source serves, then flushes. -/
def transfer (push : α → m Reply) (flush : m Reply) (source : Source α) : m Transferred := do
  let (pass, count) ← (source.pass fun group _ => pushAll push group).run 0
  match pass with
  | .refused => return .refused
  | .stopped reply => return .stopped reply
  | .complete =>
    match ← flush with
    | .ok => return .pushed count
    | reply => return .stopped reply

end Batch

end BatchPool
