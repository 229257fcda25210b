import BatchPool.Json.Parser

/-!
# A stream of values

Values may follow each other with or without blanks between them. Arrays, objects and texts end
themselves; behind any other value there has to be a delimiter or nothing.

* `Json.Stream`: the bytes still to be read, what stands behind them, and whether reading failed.
* `Json.Stream.next`: the next value. A value that cannot be read ends the stream for good; a value
  that is not followed by a delimiter is lost, and the stream goes on behind it.
-/

namespace BatchPool

namespace Json

/-- A stream of values. -/
structure Stream where
  rest : Bytes
  ending : Ending
  failed : Bool := false
  deriving Repr

/-- What reading from a stream gives. -/
inductive Item where
  | value (v : Json)
  | fault (f : Fault)
  | done

namespace Stream

/-- The first byte of a value that ends itself. -/
def endsItself (first : UInt8) : Bool := first == 0x5B || first == 0x22 || first == 0x7B

/-- A byte that may follow a value of any kind: a blank or one of `"[]{},:`. -/
def isDelimiter (b : UInt8) : Bool :=
  isBlank b || b == 0x22 || b == 0x5B || b == 0x5D || b == 0x7B || b == 0x7D || b == 0x2C ||
    b == 0x3A

/-- What follows a value that does not end itself. -/
def afterValue (e : Ending) : Bytes → Except Fault Unit
  | [] =>
    match e with
    | .closed => .ok ()
    | .broken reason => .error (.unreadable reason)
  | b :: _ => if isDelimiter b then .ok () else .error (.malformed .trailingCharacters)

/-- Reads the next value. -/
def next (s : Stream) : Item × Stream :=
  if s.failed then (.done, s)
  else
    match skipBlanks s.rest with
    | [] =>
      match s.ending with
      | .closed => (.done, { s with rest := [] })
      | .broken reason => (.fault (.unreadable reason), { s with rest := [], failed := true })
    | first :: rest =>
      match value s.ending depthLimit (first :: rest) with
      | .error f => (.fault f, { s with failed := true })
      | .ok (v, after) =>
        if endsItself first then (.value v, { s with rest := after.1 })
        else
          match afterValue s.ending after.1 with
          | .ok () => (.value v, { s with rest := after.1 })
          | .error f => (.fault f, { s with rest := after.1 })

/-- Reading a value uses up some of the bytes. -/
theorem length_rest_next_lt {s t : Stream} {v : Json} (h : s.next = (.value v, t)) :
    t.rest.length < s.rest.length := by
  unfold next at h
  split at h
  · simp at h
  · split at h
    · split at h <;> simp at h
    · next first rest hb =>
      have hlt : (first :: rest).length ≤ s.rest.length := hb ▸ length_skipBlanks_le s.rest
      split at h
      · simp at h
      · next after _ =>
        have := after.2
        split at h
        · simp only [Prod.mk.injEq] at h
          rw [← h.2]
          exact Nat.lt_of_lt_of_le this hlt
        · split at h
          · simp only [Prod.mk.injEq] at h
            rw [← h.2]
            exact Nat.lt_of_lt_of_le this hlt
          · simp at h

end Stream

end Json

end BatchPool
