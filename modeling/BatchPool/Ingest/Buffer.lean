import BatchPool.Files

/-!
# Buffered output

* `Buffer`: bytes that were written but have not reached their file yet. What does not fit makes the
  buffer empty itself first; what is as large as the buffer goes past it.
* `Buffer.write`, `Buffer.flush`: writes bytes, and empties the buffer. A buffer that could not be
  emptied keeps what it has.
* `Buffer.writeLine`: a text and the line feed behind it, in two writes.
-/

namespace BatchPool

/-- Bytes on their way to a file. -/
structure Buffer where
  held : Bytes := []
  deriving Repr, DecidableEq

namespace Buffer

/-- How many bytes a buffer can hold. -/
def capacity : Nat := 8192

variable {m : Type → Type} {H : Type} [Monad m]

/-- Empties the buffer into its file. -/
def flush (ops : FileOps m H) (file : H) : StateT Buffer m (Except OsError Unit) := do
  let b ← get
  if b.held.isEmpty then return .ok ()
  else
    match ← ops.append file b.held with
    | .error e => return .error e
    | .ok () =>
      set ({} : Buffer)
      return .ok ()

/-- Writes bytes that fit into the empty buffer, or go past it. -/
def place (ops : FileOps m H) (file : H) (bytes : Bytes) :
    StateT Buffer m (Except OsError Unit) := do
  if capacity ≤ bytes.length then ops.append file bytes
  else
    modify fun b => { b with held := b.held ++ bytes }
    return .ok ()

/-- Writes bytes. -/
def write (ops : FileOps m H) (file : H) (bytes : Bytes) :
    StateT Buffer m (Except OsError Unit) := do
  if (← get).held.length + bytes.length ≤ capacity then place ops file bytes
  else
    match ← flush ops file with
    | .error e => return .error e
    | .ok () => place ops file bytes

/-- Writes a text and a line feed. -/
def writeLine (ops : FileOps m H) (file : H) (text : String) :
    StateT Buffer m (Except OsError Unit) := do
  match ← write ops file (bytesOf text) with
  | .error e => return .error e
  | .ok () => write ops file [0x0A]

/-- Writes all lines, whatever becomes of each of them, and empties the buffer. -/
def writeLines (ops : FileOps m H) (file : H) : List String → StateT Buffer m (Except OsError Unit)
  | [] => flush ops file
  | text :: rest => do
    let _ ← writeLine ops file text
    writeLines ops file rest

end Buffer

end BatchPool
