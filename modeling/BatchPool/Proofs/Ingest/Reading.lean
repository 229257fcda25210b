import BatchPool.Proofs.Json.Values
import BatchPool.Reader

/-!
# Reading an input

* `Json.Stream.Yields`: a stream whose tokens all decode gives these values.
* `Reader.readAll_eq`: then reading gives the records of the tokens, one after another, and no failure.
* `Json.Stream.Breaks`: a stream gives these values, and then a fault. Cut off before the fault it gives
  just these values (`Breaks.exists_yields`).
* `Reader.readAll_of_breaks`: then reading gives the records of the tokens before the fault, and a failure
  that names the token with the fault.
-/

namespace BatchPool

/-- Reading from the stream gives these values, and then its end. -/
inductive Json.Stream.Yields : Json.Stream → List Json → Prop where
  | done {s s' : Json.Stream} (h : s.next = (.done, s')) : Yields s []
  | value {s s' : Json.Stream} {v : Json} {rest : List Json} (h : s.next = (.value v, s'))
      (later : Yields s' rest) : Yields s (v :: rest)

/-- Reading from the stream gives these values, and then a fault. -/
inductive Json.Stream.Breaks : Json.Stream → List Json → Json.Fault → Prop where
  | fault {s s' : Json.Stream} {f : Json.Fault} (h : s.next = (.fault f, s')) : Breaks s [] f
  | value {s s' : Json.Stream} {v : Json} {rest : List Json} {f : Json.Fault}
      (h : s.next = (.value v, s')) (later : Breaks s' rest f) : Breaks s (v :: rest) f

/-- What may stand behind a value may be cut off anywhere. -/
theorem Json.Behind.cut {first : UInt8} {e : Ending} {rest cut : Bytes}
    (h : Json.Behind first e rest) (front : cut <+: rest) : Json.Behind first .closed cut := by
  refine h.imp_right fun parted => Json.parted_iff.2 ?_
  cases cut with
  | nil => exact .inl ⟨rfl, rfl⟩
  | cons b cut =>
    obtain ⟨back, rfl⟩ := front
    obtain ⟨empty, -⟩ | ⟨c, tail, same, delimiter⟩ := Json.parted_iff.1 parted
    · cases empty
    · cases same
      exact .inr ⟨b, cut, rfl, delimiter⟩

/-- **Input that is cut off before a fault gives the values before it.** -/
theorem Json.Stream.Breaks.exists_yields {s : Json.Stream} {tokens : List Json} {f : Json.Fault}
    (h : s.Breaks tokens f) : ∃ cut, cut <+: s.rest ∧
      Json.Stream.Yields { rest := cut, ending := .closed } tokens := by
  induction h with
  | fault => exact ⟨[], List.nil_prefix, .done rfl⟩
  | value given later ih =>
    obtain ⟨cut, shorter, yields⟩ := ih
    obtain ⟨first, front, split, behind, all⟩ := Json.Stream.exists_front_next given
    refine ⟨front ++ cut, ?_, .value (all .closed cut (behind.cut shorter)) yields⟩
    rw [split]
    exact (List.prefix_append_right_inj front).2 shorter

namespace Reader

variable {r : Reader} {v : Json} {s : Json.Stream} {f : Json.Fault}

theorem next_of_done (h : r.stream.next = (.done, s)) :
    r.next standard = (.done, { r with stream := s }) := by
  rw [next, h]

theorem next_of_value (h : r.stream.next = (.value v, s)) :
    r.next standard =
      (.records (Record.ofToken v), { stream := s, tokensRead := r.tokensRead + 1 }) := by
  rw [next, h]
  rfl

theorem next_of_fault (h : r.stream.next = (.fault f, s)) :
    r.next standard = (.failed (decodeFailure r.tokensRead f), { r with stream := s }) := by
  rw [next, h]

/-- The end of a stream that was read before is the end of reading. -/
theorem readAll_of_done {r' : Reader} (h : r.next standard = (.done, r')) :
    r.readAll = { records := [], tokens := r'.tokensRead, failure := none } := by
  rw [readAll]
  split
  · next hd => cases h.symm.trans hd; rfl
  · next hf => cases h.symm.trans hf
  · next hr => cases h.symm.trans hr

/-- So is a failure. -/
theorem readAll_of_failed {r' : Reader} {failure : Failure}
    (h : r.next standard = (.failed failure, r')) :
    r.readAll = { records := [], tokens := r'.tokensRead, failure := some failure } := by
  rw [readAll]
  split
  · next hd => cases h.symm.trans hd
  · next hf => cases h.symm.trans hf; rfl
  · next hr => cases h.symm.trans hr

theorem readAll_of_records {r' : Reader} {rs : List Record}
    (h : r.next standard = (.records rs, r')) :
    r.readAll = { r'.readAll with records := rs ++ r'.readAll.records } := by
  rw [readAll]
  split
  · next hd => cases h.symm.trans hd
  · next hf => cases h.symm.trans hf
  · next hr => cases h.symm.trans hr; rfl

/-- **Input whose tokens all decode is read to its end.** -/
theorem readAll_eq {tokens : List Json} (h : r.stream.Yields tokens) :
    r.readAll = {
      records := tokens.flatMap Record.ofToken
      tokens := r.tokensRead + tokens.length
      failure := none } := by
  generalize hs : r.stream = s at h
  induction h generalizing r with
  | done ended =>
    rw [readAll_of_done (next_of_done (hs ▸ ended))]
    rfl
  | value first later ih =>
    rw [readAll_of_records (next_of_value (hs ▸ first)), ih rfl]
    simp only [List.flatMap_cons, List.length_cons]
    congr 1
    omega

/-- **Input that is malformed is read up to the token with the fault.** -/
theorem readAll_of_breaks {tokens : List Json} (h : r.stream.Breaks tokens f) :
    r.readAll = {
      records := tokens.flatMap Record.ofToken
      tokens := r.tokensRead + tokens.length
      failure := some (decodeFailure (r.tokensRead + tokens.length) f) } := by
  generalize hs : r.stream = s at h
  induction h generalizing r with
  | fault broken =>
    rw [readAll_of_failed (next_of_fault (hs ▸ broken))]
    rfl
  | @value _ _ _ rest _ first later ih =>
    rw [readAll_of_records (next_of_value (hs ▸ first)), ih rfl]
    have count : r.tokensRead + 1 + rest.length = r.tokensRead + (rest.length + 1) := by omega
    simp only [List.flatMap_cons, List.length_cons, count]

end Reader

end BatchPool
