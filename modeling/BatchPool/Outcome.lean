import BatchPool.Failure

/-!
# How user code ends

* `Outcome`: a handler or a work function returns, fails or panics.
* `Outcome.panicText`: what a panic says, where it carries a text.
-/

namespace BatchPool

/-- How a call of user code ends. A panic may carry something else than a text. -/
inductive Outcome where
  | done
  | failed (failure : Failure)
  | panicked (text : Option String)
  deriving Inhabited

/-- What a panic says. -/
def Outcome.panicText : Option String → String
  | some text => text
  | none => "unknown panic payload"

end BatchPool
