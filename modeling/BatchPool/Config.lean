import BatchPool.Json.Decoder

/-!
# Configurations

* `BatchConfig`: the size of a group.
* `PoolConfig`: queue capacity, number of workers and the name that the threads of a pool start with.
  Without a number of workers there are as many as the machine has processors.
* `IngestConfig`: both, as a configuration file holds them.

All fields may be missing in a configuration; a missing one has its default.
-/

namespace BatchPool

/-- The group size where none is given. -/
def defaultBatchSize : Nat := 100

/-- The size in use for a configured size: zero stands for the default. -/
def effectiveSize (size : Nat) : Nat := if size = 0 then defaultBatchSize else size

theorem effectiveSize_pos (size : Nat) : 0 < effectiveSize size := by
  unfold effectiveSize defaultBatchSize
  split <;> omega

/-! ## Batches -/

/-- Parameters of a batch. -/
structure BatchConfig where
  size : Nat := defaultBatchSize
  deriving Repr, DecidableEq

namespace BatchConfig

/-- The written form of a batch configuration. -/
def form : Json.Form (Option Nat) BatchConfig where
  name := "struct BatchConfig"
  fields := [.of "size" id (fun a _ => some a) Json.size]
  blank := none
  complete d := .ok { size := d.getD defaultBatchSize }

/-- How a batch configuration is read. -/
def decoder : Json.Decoder BatchConfig := form.decoder

/-- A batch configuration as JSON text. -/
def text (c : BatchConfig) : String := (Json.obj [("size", .int c.size)]).compact

/-- A batch configuration as it is shown in messages. -/
def debug (c : BatchConfig) : String := "BatchConfig \x7b size: " ++ toString c.size ++ " \x7d"

end BatchConfig

/-! ## Pools -/

/-- Parameters of a pool. -/
structure PoolConfig where
  queueCapacity : Nat := 100
  workerCount : Option Nat := none
  threadName : String := "workpool"
  deriving Repr, DecidableEq

namespace PoolConfig

/-- The number of workers on a machine with the given number of processors. -/
def workers (c : PoolConfig) (processors : Nat) : Nat := c.workerCount.getD processors

/-- A pool configuration that is being filled in. -/
structure Draft where
  queueCapacity : Option Nat := none
  workerCount : Option Nat := none
  threadName : Option String := none

/-- The written form of a pool configuration. -/
def form : Json.Form Draft PoolConfig where
  name := "struct DispatcherConfig"
  fields := [
    .of "queue-capacity" (·.queueCapacity) (fun a d => { d with queueCapacity := some a }) Json.size,
    .of "worker-count" (·.workerCount) (fun a d => { d with workerCount := some a }) Json.size,
    .of "thread-name" (·.threadName) (fun a d => { d with threadName := some a }) Json.words]
  blank := {}
  complete d :=
    .ok {
      queueCapacity := d.queueCapacity.getD 100
      workerCount := d.workerCount
      threadName := d.threadName.getD "workpool" }

/-- How a pool configuration is read. -/
def decoder : Json.Decoder PoolConfig := form.decoder

/-- A pool configuration as JSON text, with its number of workers on the given machine. -/
def text (c : PoolConfig) (processors : Nat) : String :=
  (Json.obj [("queue-capacity", .int c.queueCapacity), ("worker-count", .int (c.workers processors)),
    ("thread-name", .str c.threadName)]).compact

end PoolConfig

/-! ## Both -/

/-- Parameters of an ingest run. -/
structure IngestConfig where
  pool : PoolConfig := {}
  batch : BatchConfig := {}
  deriving Repr, DecidableEq

namespace IngestConfig

/-- An ingest configuration that is being filled in. -/
structure Draft where
  pool : Option PoolConfig := none
  batch : Option BatchConfig := none

/-- The written form of an ingest configuration. -/
def form : Json.Form Draft IngestConfig where
  name := "struct IngestConfig"
  fields := [
    .of "dispatcher" (·.pool) (fun a d => { d with pool := some a }) PoolConfig.decoder,
    .of "batch" (·.batch) (fun a d => { d with batch := some a }) BatchConfig.decoder]
  blank := {}
  complete d := .ok { pool := d.pool.getD {}, batch := d.batch.getD {} }

/-- How an ingest configuration is read. -/
def decoder : Json.Decoder IngestConfig := form.decoder

end IngestConfig

end BatchPool
