import BatchPool.Batch.Script
import BatchPool.Config
import BatchPool.Decimal.Shortest
import BatchPool.Feed
import BatchPool.Files
import BatchPool.Flow.Sums
import BatchPool.Ingest.Program
import BatchPool.Job
import BatchPool.Json.Printer
import BatchPool.Main
import BatchPool.Pool.Rig
import BatchPool.Proofs.Batch.Chunks
import BatchPool.Proofs.Batch.Conservation
import BatchPool.Proofs.Batch.Outcomes
import BatchPool.Proofs.Batch.Quiet
import BatchPool.Proofs.Batch.Renewal
import BatchPool.Proofs.Batch.Results
import BatchPool.Proofs.Batch.Shortcut
import BatchPool.Proofs.Batch.Transfers
import BatchPool.Proofs.Feed.Answers
import BatchPool.Proofs.Feed.Carried
import BatchPool.Proofs.Feed.Runs
import BatchPool.Proofs.Flow.Progress
import BatchPool.Proofs.Flow.Queued
import BatchPool.Proofs.Ingest.Bookkeeping
import BatchPool.Proofs.Ingest.Malformed
import BatchPool.Proofs.Ingest.Ordered
import BatchPool.Proofs.Json.Printed
import BatchPool.Proofs.Pool.Casualties
import BatchPool.Proofs.Pool.Containment
import BatchPool.Proofs.Pool.Deserted
import BatchPool.Proofs.Pool.Effort
import BatchPool.Proofs.Pool.Erasure
import BatchPool.Proofs.Pool.FailedStart
import BatchPool.Proofs.Pool.HandOver
import BatchPool.Proofs.Pool.InFlight
import BatchPool.Proofs.Pool.Isolation
import BatchPool.Proofs.Pool.Joining
import BatchPool.Proofs.Pool.Lifecycle
import BatchPool.Proofs.Pool.Quiescence
import BatchPool.Proofs.Pool.RoundRobin
import BatchPool.Proofs.Pool.Sequence
import BatchPool.Proofs.Pool.Shutdown
import BatchPool.Proofs.Pool.Toil
import BatchPool.Proofs.Pool.TurnedAway
import BatchPool.Proofs.Pool.Whole
import BatchPool.Proofs.Source.Serving
import BatchPool.Reader
import BatchPool.Stopwatch
