import BatchPool.Json.Fault
import BatchPool.Pool.Error

/-!
# Failures with context

* `OsError`: what the operating system refuses.
* `Cause`: where a failure began.
* `Failure`: a cause with what its callers added to it. `Failure.message` is what the last one said,
  `Failure.chain` what all said, the last one first; `Failure.report` lays them out in lines.
-/

namespace BatchPool

/-- What the operating system refuses. -/
inductive OsError where
  | notFound
  | notDirectory
  | isDirectory
  | noSpace
  | other (text : String)
  deriving Repr, DecidableEq

/-- The text of a refusal of the operating system. -/
def OsError.message : OsError → String
  | .notFound => "No such file or directory (os error 2)"
  | .notDirectory => "Not a directory (os error 20)"
  | .isDirectory => "Is a directory (os error 21)"
  | .noSpace => "No space left on device (os error 28)"
  | .other text => text

/-- Where a failure began. -/
inductive Cause where
  | stated (text : String)
  | json (fault : Json.Fault)
  | pool (error : Pool.Error)
  | uninitialized
  | os (error : OsError)

/-- The text of a cause. -/
def Cause.message : Cause → String
  | .stated text => text
  | .json fault => fault.message
  | .pool error => error.message
  | .uninitialized => "batch not initialized"
  | .os error => error.message

/-- A cause with the contexts that were added to it, the last one first. -/
structure Failure where
  contexts : List String := []
  cause : Cause

namespace Failure

/-- A failure of which only a text is known. -/
def stated (text : String) : Failure := { cause := .stated text }

/-- The failure with one more context. -/
def context (f : Failure) (text : String) : Failure := { f with contexts := text :: f.contexts }

/-- The texts from the last context to the cause. -/
def chain (f : Failure) : List String := f.contexts ++ [f.cause.message]

/-- What was said last. -/
def message (f : Failure) : String := f.chain.headD ""

/-- All texts, the last one first. -/
def full (f : Failure) : String := ": ".intercalate f.chain

/-- A number with blanks before it, five characters in all. -/
def padded (n : Nat) : String :=
  let digits := toString n
  String.ofList (List.replicate (5 - digits.length) ' ') ++ digits

/-- Causes with their numbers, the first of them being number `index`. -/
def numbered : (index : Nat) → List String → List String
  | _, [] => []
  | index, text :: rest => (padded index ++ ": " ++ text) :: numbered (index + 1) rest

/-- The lines in which a program that failed says why: what was said last, and below it the rest,
numbered if there is more than one. -/
def report (f : Failure) : List String :=
  ("Error: " ++ f.message) ::
    match f.chain.tail with
    | [] => []
    | [cause] => ["", "Caused by:", "    " ++ cause]
    | causes => ["", "Caused by:"] ++ numbered 0 causes

end Failure

end BatchPool
