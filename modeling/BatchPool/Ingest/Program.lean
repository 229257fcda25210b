import BatchPool.Ingest.Arguments
import BatchPool.Ingest.Buffer
import BatchPool.Ingest.System

/-!
# The ingest program

* `Ingest.Exit`: how the program ends.
* `Ingest.loadConfig`: the configuration that a command line asks for. Flags take precedence over a
  configuration file.
* `Ingest.ingest`: opens the input and the output, runs, and writes the lines.
* `Ingest.program`: the program for a list of words.
-/

namespace BatchPool

namespace Ingest

/-- How the program ends: its exit code, and the lines that it writes to the standard error. -/
structure Exit where
  code : Nat
  errors : List String := []
  deriving Repr, DecidableEq

/-- The end of a program that failed. -/
def Exit.failed (f : Failure) : Exit := { code := 1, errors := f.report }

/-- What the program says about its use. -/
def usage : List String :=
  ["Usage: ingest [OPTIONS] --input <FILE>", "", "Options:",
    "      --input <FILE>                     File with concatenated or newline-delimited JSON values",
    "      --output <FILE>                    Where to write the summaries (default: stdout)",
    "      --config <JSON>                    JSON file with dispatcher and batch sections",
    "      --workers <WORKERS>                Number of summarising workers",
    "      --queue-capacity <QUEUE_CAPACITY>  Number of groups that may wait for a worker",
    "      --batch-size <BATCH_SIZE>          Number of records per group",
    "  -h, --help                             Print help",
    "  -V, --version                          Print version"]

/-- A failure to do something with a path. -/
def pathFailure (verb path : String) (cause : Cause) : Failure :=
  { contexts := ["failed to " ++ verb ++ " " ++ path], cause := cause }

section

variable {m : Type → Type} {H : Type} [Monad m]

/-- The text in a file. -/
def readText (ops : FileOps m H) (path : String) : m (Except Failure String) := do
  match ← ops.openFile path with
  | .error e => return .error (pathFailure "read" path (.os e))
  | .ok file =>
    match ← ops.contents file with
    | (_, .broken reason) => return .error (pathFailure "read" path (.stated reason))
    | (bytes, .closed) =>
      match String.fromUTF8? ⟨bytes.toArray⟩ with
      | some text => return .ok text
      | none =>
        return .error (pathFailure "read" path (.stated "stream did not contain valid UTF-8"))

/-- The configuration in a file. -/
def readConfig (ops : FileOps m H) (path : String) : m (Except Failure IngestConfig) := do
  match ← readText ops path with
  | .error f => return .error f
  | .ok text =>
    return (IngestConfig.decoder.parse text).mapError fun f => pathFailure "parse" path (.json f)

/-- A configuration with what the command line says. -/
def override (a : Arguments) (c : IngestConfig) : IngestConfig where
  pool := { c.pool with
    workerCount := a.workers.or c.pool.workerCount
    queueCapacity := a.queueCapacity.getD c.pool.queueCapacity }
  batch := { size := a.batchSize.getD c.batch.size }

/-- The configuration that a command line asks for. -/
def loadConfig (ops : FileOps m H) (a : Arguments) : m (Except Failure IngestConfig) := do
  match a.config with
  | none => return .ok (override a {})
  | some path => return (← readConfig ops path).map (override a)

/-- Opens the output: a new file, or the standard output. -/
def openOutput (ops : FileOps m H) (a : Arguments) : m (Except Failure H) := do
  match a.output with
  | none => return .ok ops.standardOutput
  | some path => return (← ops.create path).mapError fun e => pathFailure "create" path (.os e)

/-- Runs over an input and writes the lines. A failure to write is worse than one to read. -/
def runInto (ops : FileOps m H) (c : IngestConfig) (processors : Nat) (input : Reader)
    (path : String) (output : H) : m Exit := do
  match run c processors input with
  | .error f => return .failed f
  | .ok result =>
    match ← (Buffer.writeLines ops output (result.lines.map Line.text)).run' {} with
    | .error e => return .failed { cause := .os e }
    | .ok () =>
      match result.malformed with
      | none => return { code := 0 }
      | some f => return .failed (f.context (path ++ " is malformed"))

/-- Opens the input and the output, runs, and writes the lines. The input is read only once the
output is there, which may be the same file. -/
def ingest (ops : FileOps m H) (a : Arguments) (c : IngestConfig) (processors : Nat) : m Exit := do
  match ← ops.openFile a.input with
  | .error e => return .failed (pathFailure "open" a.input (.os e))
  | .ok file =>
    match ← openOutput ops a with
    | .error f => return .failed f
    | .ok output =>
      let (bytes, ending) ← ops.contents file
      runInto ops c processors (.ofBytes bytes ending) a.input output

/-- The program for a list of words, on a machine with the given number of processors. -/
def program (ops : FileOps m H) (processors : Nat) (words : List String) : m Exit := do
  match CommandLine.read words with
  | .help =>
    let _ ← (Buffer.writeLines ops ops.standardOutput usage).run' {}
    return { code := 0 }
  | .version =>
    let _ ← (Buffer.writeLines ops ops.standardOutput ["ingest 0.1.0"]).run' {}
    return { code := 0 }
  | .unusable => return { code := 2, errors := "error: the arguments cannot be used" :: "" :: usage }
  | .run a =>
    match a.fault? with
    | some text => return { code := 2, errors := ["Error: " ++ text] }
    | none =>
      match ← loadConfig ops a with
      | .error f => return .failed f
      | .ok c => ingest ops a c processors

end

end Ingest

end BatchPool
