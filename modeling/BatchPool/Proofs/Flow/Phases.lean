import BatchPool.Flow.Basic
import BatchPool.Proofs.Feed.Runs
import BatchPool.Proofs.Pool.Steered

/-!
# The phases of the reading thread

The reading thread starts both pools, pushes all records, flushes, waits, may enqueue a last job, and
shuts both pools down.

* `Phase`: how far it has come, and `Phase.commands`: what it has still to do.
* `Phase.Begins`: the command that it begins with, and the phase behind it.
* `Phase.Goes`: the steps of the feed in a phase, and the phase behind each.
-/

namespace BatchPool

/-- How far the reading thread has come with its commands. -/
inductive Phase (R : Type) where
  | opening (records : List R)
  | openingPool (records : List R)
  | pushing (records : List R)
  | waiting
  | asking
  | shutting
  | shuttingWriter
  | finished

namespace Phase

variable {R : Type}

/-- The phases in their order. -/
def order : Phase R → Nat
  | opening _ => 0
  | openingPool _ => 1
  | pushing _ => 2
  | waiting => 3
  | asking => 4
  | shutting => 5
  | shuttingWriter => 6
  | finished => 7

/-- The records that are still to be pushed. -/
def remaining : Phase R → List R
  | opening records | openingPool records | pushing records => records
  | _ => []

/-- The phase behind the waiting. A last job is only enqueued if all input is complete. -/
def waited (complete : Bool) : Phase R := if complete then asking else shutting

/-- The jobs that were enqueued beside the groups. -/
def direct (complete : Bool) (phase : Phase R) : List (Job (List R)) :=
  if complete ∧ 5 ≤ phase.order then [.last []] else []

/-- The commands behind the one that waits for the pool. -/
def closing (complete : Bool) : List (Command R) :=
  (if complete then [.last] else []) ++ [.shutPool, .shutWriter]

/-- The commands that are left in a phase. -/
def commands (complete : Bool) : Phase R → List (Command R)
  | opening records =>
    .startWriter :: .startPool :: (records.map .push ++ .flush :: .idlePool :: closing complete)
  | openingPool records =>
    .startPool :: (records.map .push ++ .flush :: .idlePool :: closing complete)
  | pushing records => records.map .push ++ .flush :: .idlePool :: closing complete
  | waiting => .idlePool :: closing complete
  | asking => [.last, .shutPool, .shutWriter]
  | shutting => [.shutPool, .shutWriter]
  | shuttingWriter => [.shutWriter]
  | finished => []

variable {complete : Bool} {phase phase' : Phase R}

/-- The phase behind a command. -/
inductive Begins (complete : Bool) : Phase R → Command R → Phase R → Prop where
  | startWriter (records : List R) :
    Begins complete (opening records) .startWriter (openingPool records)
  | startPool (records : List R) :
    Begins complete (openingPool records) .startPool (pushing records)
  | push (record : R) (records : List R) :
    Begins complete (pushing (record :: records)) (.push record) (pushing records)
  | flush : Begins complete (pushing []) .flush waiting
  | idle : Begins complete waiting .idlePool (waited complete)
  | last (whole : complete = true) : Begins complete asking .last shutting
  | shutPool : Begins complete shutting .shutPool shuttingWriter
  | shutWriter : Begins complete shuttingWriter .shutWriter finished

/-- The steps of the feed, and the phase behind each. -/
inductive Goes (complete : Bool) : Phase R → Feed.Step R → Phase R → Prop where
  | start (records : List R) :
    Goes complete (openingPool records) (.pool (.start (.client 0))) (pushing records)
  | push (record : R) (records : List R) :
    Goes complete (pushing (record :: records)) (.push 0 record) (pushing records)
  | flush : Goes complete (pushing []) (.flush 0) waiting
  | idle : Goes complete waiting (.pool (.idle (.client 0))) (waited complete)
  | last (whole : complete = true) :
    Goes complete asking (.pool (.enqueue (.client 0) (.last []))) shutting
  | shut : Goes complete shutting (.pool (.shutDown (.client 0))) shuttingWriter
  | enter (phase : Phase R) : Goes complete phase (.enter 0) phase
  | continues (phase : Phase R) {step : Pool.Step (Job (List R))} (h : step.continues = true) :
    Goes complete phase (.pool step) phase

/-! ## Commands -/

@[simp] theorem commands_waited : (waited complete : Phase R).commands complete =
    closing complete := by
  cases complete <;> rfl

@[simp] theorem remaining_waited : (waited complete : Phase R).remaining = [] := by
  cases complete <;> rfl

@[simp] theorem direct_waited : (waited complete : Phase R).direct complete = [] := by
  cases complete <;> rfl

theorem order_waited (R : Type) (complete : Bool) :
    4 ≤ (waited complete : Phase R).order ∧ (waited complete : Phase R).order < 6 := by
  cases complete <;> simp [waited, order]

/-- Behind the first command there is the next phase. A last job is enqueued only at the end of a
complete input. -/
theorem Begins.of_commands {command : Command R} {rest : List (Command R)}
    (asks : phase.order = 4 → complete = true)
    (h : phase.commands complete = command :: rest) :
    ∃ phase', Begins complete phase command phase' ∧ rest = phase'.commands complete := by
  cases phase with
  | opening records => cases h; exact ⟨_, .startWriter records, rfl⟩
  | openingPool records => cases h; exact ⟨_, .startPool records, rfl⟩
  | pushing records =>
    cases records with
    | nil => cases h; exact ⟨_, .flush, rfl⟩
    | cons record records => cases h; exact ⟨_, .push record records, rfl⟩
  | waiting => cases h; exact ⟨_, .idle, commands_waited.symm⟩
  | asking => cases h; exact ⟨_, .last (asks rfl), rfl⟩
  | shutting => cases h; exact ⟨_, .shutPool, rfl⟩
  | shuttingWriter => cases h; exact ⟨_, .shutWriter, rfl⟩
  | finished => cases h

/-! ## Steps -/

theorem direct?_of_continues {step : Pool.Step (Job (List R))} (h : step.continues = true) :
    step.job? = none ∧ step.panics = false := by
  cases step with
  | enqueue | offer => cases h
  | discard | conclude => simpa [Pool.Step.continues, Pool.Step.job?, Pool.Step.panics] using h
  | _ => exact ⟨rfl, rfl⟩

theorem Goes.calm {step : Feed.Step R} (h : Goes complete phase step phase') :
    step.panics = false := by
  cases h with
  | continues phase h => exact (direct?_of_continues h).2
  | _ => rfl

/-- A step takes the records one after another. -/
theorem Goes.remaining_eq {step : Feed.Step R} (h : Goes complete phase step phase') :
    step.pushed?.toList ++ phase'.remaining = phase.remaining := by
  cases h with
  | idle => exact remaining_waited
  | _ => rfl

theorem Goes.direct_eq {step : Feed.Step R} (h : Goes complete phase step phase') :
    phase'.direct complete = phase.direct complete ++ step.direct?.toList := by
  cases h with
  | idle =>
    rw [direct_waited]
    simp [direct, order, Feed.Step.direct?, Pool.Step.job?]
  | last whole => simp [direct, order, whole, Feed.Step.direct?, Pool.Step.job?]
  | continues phase h => simp [Feed.Step.direct?, (direct?_of_continues h).1]
  | _ => simp [direct, order, Feed.Step.direct?, Pool.Step.job?]

/-- Only the first phases have records, and a flush comes behind them. -/
theorem Goes.flushes_last {step : Feed.Step R} (h : Goes complete phase step phase')
    (flush : step.flushes = true) : phase.remaining = [] := by
  cases h with
  | flush => rfl
  | _ => cases flush

/-- The steps of the feed come behind the start of the writer, and before its end. -/
theorem Goes.writer_started {step : Feed.Step R} (h : Goes complete phase step phase') :
    decide (1 ≤ phase'.order) = decide (1 ≤ phase.order) := by
  cases h with
  | idle => cases complete <;> simp [waited, order]
  | _ => simp [order]

theorem Goes.writer_closed {step : Feed.Step R} (h : Goes complete phase step phase') :
    decide (7 ≤ phase'.order) = decide (7 ≤ phase.order) := by
  cases h with
  | idle => cases complete <;> simp [waited, order]
  | _ => simp [order]

/-- The thread asks for a last job only at the end of a complete input. -/
theorem Goes.asks {step : Feed.Step R} (h : Goes complete phase step phase')
    (before : phase.order = 4 → complete = true) (asks : phase'.order = 4) : complete = true := by
  cases h with
  | idle => cases complete <;> first | rfl | cases asks
  | enter | continues => exact before asks
  | _ => cases asks

end Phase

end BatchPool
