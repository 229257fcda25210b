import BatchPool.Json.Fault

/-!
# The bytes that JSON is read from

* `Bytes`: what is still to be read.
* `Ending`: what happens when the bytes are used up: the input is complete, or the device that
  served it fails. Every reader below asks `Ending.fault` when it needs a byte that is not there.
* `Json.skipBlanks`: the input after the blanks at its front.
* `Json.literal`: reads the rest of `true`, `false` or `null`.
-/

namespace BatchPool

/-- Bytes in the order in which they come. -/
abbrev Bytes := List UInt8

/-- What stands behind the last byte. -/
inductive Ending where
  | closed
  | broken (reason : String)
  deriving Repr, DecidableEq

/-- The UTF-8 bytes of a text. -/
def bytesOf (s : String) : Bytes := s.toUTF8.data.toList

namespace Json

/-- The fault when a byte is needed and none is left. -/
def endFault (e : Ending) (place : Place) : Fault :=
  match e with
  | .closed => .ended place
  | .broken reason => .unreadable reason

/-- Space, tab, line feed and carriage return. -/
def isBlank (b : UInt8) : Bool := b == 0x20 || b == 0x09 || b == 0x0A || b == 0x0D

/-- A decimal digit. -/
def isDigit (b : UInt8) : Bool := 0x30 ≤ b && b ≤ 0x39

/-- The value of a decimal digit. -/
def digitValue (b : UInt8) : Nat := b.toNat - 0x30

/-- The input after the blanks at its front. -/
def skipBlanks (input : Bytes) : Bytes := input.dropWhile isBlank

/-- Reads the given bytes, which are the rest of a literal. -/
def literal (e : Ending) : (rest input : Bytes) → Except Fault Bytes
  | [], input => .ok input
  | _ :: _, [] => .error (endFault e .value)
  | c :: rest, b :: input =>
    if b = c then literal e rest input else .error (.malformed .expectedLiteral)

/-! ## Reading shortens the input -/

theorem length_skipBlanks_le (input : Bytes) : (skipBlanks input).length ≤ input.length := by
  simpa [skipBlanks] using (List.dropWhile_sublist isBlank).length_le

theorem length_of_skipBlanks_eq {input rest : Bytes} {b : UInt8}
    (h : skipBlanks input = b :: rest) : rest.length < input.length := by
  have := length_skipBlanks_le input
  rw [h] at this
  simp at this
  omega

theorem length_literal_le {e : Ending} {rest input out : Bytes}
    (h : literal e rest input = .ok out) : out.length ≤ input.length := by
  induction rest generalizing input with
  | nil => simp [literal] at h; simp [h]
  | cons c rest ih =>
    cases input with
    | nil => simp [literal] at h
    | cons b input =>
      simp only [literal] at h
      split at h
      · exact Nat.le_succ_of_le (ih h)
      · simp at h

end Json

end BatchPool
