/-!
# Jobs

* `Job`: a unit of work. The pool looks neither at its context nor at its end-of-stream marker.
-/

namespace BatchPool

/-- A unit of work, which may carry the producer's end-of-stream marker. -/
structure Job (C : Type) where
  context : C
  endOfStream : Bool := false
  deriving Repr, DecidableEq, Inhabited

namespace Job

/-- A job without the marker. -/
def ofContext {C : Type} (context : C) : Job C := { context }

/-- A job with the marker. -/
def last {C : Type} (context : C) : Job C := { context, endOfStream := true }

/-- A job as it is shown in messages. -/
def debug {C : Type} (item : C → String) (j : Job C) : String :=
  "Job \x7b context: " ++ item j.context ++ ", is_end_of_stream: " ++ toString j.endOfStream ++
    " \x7d"

end Job

end BatchPool
