import BatchPool.Failure
import BatchPool.Json.Stream
import BatchPool.Record

/-!
# Reading records

Each top-level value of a stream is one token. A builder decides which records a token stands for,
and may refuse it.

* `Reader`: a stream with the number of tokens that were read.
* `Reader.next`: the next token with what the builder made of it. A token is counted when it was
  decoded, whatever the builder says.
* `Reader.readAll`: all tokens up to the end or the first failure.
* `Reader.decodeToken`: a token as a value of a wanted shape, for builders.
-/

namespace BatchPool

/-- Makes records of a token, or refuses it. -/
abbrev Builder := Json → Except Failure (List Record)

/-- What reading one token gives. -/
inductive Token where
  | records (rs : List Record)
  | done
  | failed (f : Failure)

/-- A stream with the number of tokens that were read from it. -/
structure Reader where
  stream : Json.Stream
  tokensRead : Nat := 0

namespace Reader

/-- A reader of bytes. -/
def ofBytes (bytes : Bytes) (ending : Ending) : Reader :=
  { stream := { rest := bytes, ending := ending } }

/-- A value that could not be decoded, as a failure that says which token it is. -/
def decodeFailure (tokensRead : Nat) (f : Json.Fault) : Failure :=
  { contexts := ["failed to decode token " ++ toString (tokensRead + 1)], cause := .json f }

/-- Reads the next token and lets the builder make records of it. -/
def next (build : Builder) (r : Reader) : Token × Reader :=
  match r.stream.next with
  | (.done, s) => (.done, { r with stream := s })
  | (.fault f, s) => (.failed (decodeFailure r.tokensRead f), { r with stream := s })
  | (.value v, s) =>
    let r' : Reader := { stream := s, tokensRead := r.tokensRead + 1 }
    match build v with
    | .ok rs => (.records rs, r')
    | .error f => (.failed f, r')

/-- The builder is asked by the next call: there is a token to be read. -/
def asksBuilder (r : Reader) : Bool :=
  match r.stream.next with
  | (.value _, _) => true
  | _ => false

/-- The value of a token in a wanted shape. -/
def decodeToken {α : Type} (d : Json → Except Json.Fault α) (v : Json) : Except Failure α :=
  match d v with
  | .ok a => .ok a
  | .error f => .error { contexts := ["token has an unexpected shape"], cause := .json f }

/-- The builder that takes every token for the records that it stands for. -/
def standard : Builder := fun v => .ok (Record.ofToken v)

theorem length_next_lt {build : Builder} {r r' : Reader} {rs : List Record}
    (h : r.next build = (.records rs, r')) :
    r'.stream.rest.length < r.stream.rest.length := by
  unfold next at h
  split at h
  · simp at h
  · simp at h
  · next v s hs =>
    dsimp only at h
    split at h
    · simp only [Prod.mk.injEq] at h
      rw [← h.2]
      exact Json.Stream.length_rest_next_lt hs
    · simp at h

/-- What the tokens of a stream come to: their records, how many tokens were read, and the failure
that ended reading, if one did. -/
structure Reading where
  records : List Record
  tokens : Nat
  failure : Option Failure

/-- Reads tokens up to the end of the stream or the first one that cannot be read. -/
def readAll (r : Reader) : Reading :=
  match _h : r.next standard with
  | (.done, r') => { records := [], tokens := r'.tokensRead, failure := none }
  | (.failed f, r') => { records := [], tokens := r'.tokensRead, failure := some f }
  | (.records rs, r') =>
    let rest := readAll r'
    { rest with records := rs ++ rest.records }
termination_by r.stream.rest.length
decreasing_by exact length_next_lt _h

end Reader

end BatchPool
