import BatchPool.Ingest.Program

/-!
# The command line

* `Console.ops`: the operations on the files of the machine.
* `main`: the ingest program on them.
-/

namespace BatchPool

namespace Console

/-- What the operating system refused. -/
def osError (e : IO.Error) : OsError :=
  match e with
  | .noFileOrDirectory _ _ _ => .notFound
  | .inappropriateType _ 20 _ => .notDirectory
  | .inappropriateType _ 21 _ => .isDirectory
  | .resourceExhausted _ 28 _ => .noSpace
  | .permissionDenied _ code details => .other (details ++ " (os error " ++ toString code ++ ")")
  | e => .other (toString e)

/-- An action whose failure is a value. -/
def attempt {α : Type} (action : IO α) : IO (Except OsError α) := do
  match ← action.toBaseIO with
  | .ok a => return .ok a
  | .error e => return .error (osError e)

/-- Reads a stream to its end, given the pieces before, the last one first. -/
partial def readPieces (stream : IO.FS.Stream) (pieces : List Bytes) : IO (Bytes × Ending) := do
  match ← attempt (stream.read 65536) with
  | .error e => return (pieces.reverse.flatten, .broken e.message)
  | .ok piece =>
    if piece.isEmpty then return (pieces.reverse.flatten, .closed)
    else readPieces stream (piece.data.toList :: pieces)

/-- Opens a file of the machine. -/
def openStream (path : String) (mode : IO.FS.Mode) : IO (Except OsError IO.FS.Stream) :=
  attempt do return .ofHandle (← IO.FS.Handle.mk path mode)

/-- Writes bytes to a stream. -/
def append (stream : IO.FS.Stream) (bytes : Bytes) : IO (Except OsError Unit) :=
  attempt do
    stream.write ⟨bytes.toArray⟩
    stream.flush

/-- The operations on the files of the machine. -/
def ops (output : IO.FS.Stream) : FileOps IO IO.FS.Stream where
  openFile path := openStream path .read
  contents stream := readPieces stream []
  create path := openStream path .write
  append := append
  standardOutput := output

/-- The number of processors, as far as it is known. -/
def processors : IO Nat := do
  match ← attempt (IO.FS.lines "/proc/cpuinfo") with
  | .error _ => return 4
  | .ok lines =>
    let n := (lines.filter fun l => l.startsWith "processor").size
    return if n = 0 then 4 else n

end Console

end BatchPool

/-- Runs the ingest program. -/
def main (words : List String) : IO UInt32 := do
  let output ← IO.getStdout
  let errors ← IO.getStderr
  let exit ← BatchPool.Ingest.program (BatchPool.Console.ops output)
    (← BatchPool.Console.processors) words
  for line in exit.errors do
    errors.putStrLn line
  return exit.code.toUInt32
