/-!
# Stopwatches

Named phases of a run, measured on a clock whose readings are nanoseconds.

* `Stopwatch.lap`: ends a phase.
* `Stopwatch.report`: one line for each phase and one for the whole.
* `Stopwatch.duration`: a span of time in the largest unit that it fills.
-/

namespace BatchPool

/-- A clock reading when a run and its current phase began, and the phases that ended. -/
structure Stopwatch where
  label : String
  started : Nat
  lastLap : Nat
  laps : List (String × Nat) := []
  deriving Repr, DecidableEq

namespace Stopwatch

/-- A stopwatch that starts at a clock reading. -/
def start (label : String) (now : Nat) : Stopwatch := { label, started := now, lastLap := now }

/-- Ends the current phase at a clock reading; returns how long it took. -/
def lap (s : Stopwatch) (name : String) (now : Nat) : Nat × Stopwatch :=
  (now - s.lastLap, { s with lastLap := now, laps := s.laps ++ [(name, now - s.lastLap)] })

/-- How long the run took up to a clock reading. -/
def elapsed (s : Stopwatch) (now : Nat) : Nat := now - s.started

/-- A fraction of a unit of `10 ^ digits` without the zeros at its end, with its point. -/
def fraction (digits part : Nat) : String :=
  let text := toString part
  let padded := List.replicate (digits - text.length) '0' ++ text.toList
  match (padded.reverse.dropWhile fun c => c == '0').reverse with
  | [] => ""
  | cs => String.ofList ('.' :: cs)

/-- A span of time in the largest unit that it fills. -/
def duration (nanos : Nat) : String :=
  if 1000000000 ≤ nanos then
    toString (nanos / 1000000000) ++ fraction 9 (nanos % 1000000000) ++ "s"
  else if 1000000 ≤ nanos then
    toString (nanos / 1000000) ++ fraction 6 (nanos % 1000000) ++ "ms"
  else if 1000 ≤ nanos then toString (nanos / 1000) ++ fraction 3 (nanos % 1000) ++ "µs"
  else toString nanos ++ "ns"

/-- One line for each phase and one for the whole run up to a clock reading. -/
def report (s : Stopwatch) (now : Nat) : List String :=
  (s.laps.map fun l => s.label ++ ": " ++ l.1 ++ " took " ++ duration l.2) ++
    [s.label ++ ": total " ++ duration (s.elapsed now)]

/-- The phases that ended make up the time up to the last of them. -/
def Covered (s : Stopwatch) : Prop := s.laps.foldl (fun n l => n + l.2) s.started = s.lastLap

theorem covered_start (label : String) (now : Nat) : (start label now).Covered := by
  simp [Covered, start]

theorem covered_lap {s : Stopwatch} (h : s.Covered) (name : String) {now : Nat}
    (hn : s.lastLap ≤ now) : (s.lap name now).2.Covered := by
  simp only [Covered, lap, List.foldl_append, List.foldl_cons, List.foldl_nil] at *
  omega

end Stopwatch

end BatchPool
