import BatchPool.Proofs.Ingest.Tokens

/-!
# The books of a reader

A reader counts the tokens that it hands to builders. Which tokens these are, where it finds a fault and
where it ends is up to the bytes, and what the builders make of the tokens changes nothing.

* `Json.Stream.left`: the bytes that are still to be read. Whatever is not the end uses some of them up
  (`Json.Stream.left_next_lt`), also a fault: it ends the stream, or it comes behind a value that is lost.
* `Reader.calls_heard`: calls with other builders hear the same. `Reader.countP_calls_le`: there are no
  more of them before the end than there are bytes.
* `Reader.exists_readAll`: so the tokens of any input are read in finitely many calls.
* `Reader.KeepsCount`: what follows for the calls of a reader.
-/

namespace BatchPool

/-! ## Streams -/

namespace Json.Stream

variable {s : Stream}

/-- A stream that has failed is at its end. -/
theorem next_of_failed (failed : s.failed = true) : s.next.1 = .done := by
  simp [next, failed]

/-- What follows a value of complete input, if it does not end it. -/
theorem afterValue_closed_eq_error {back : Bytes} {f : Fault}
    (behind : afterValue .closed back = .error f) : f = .malformed .trailingCharacters ∧
      ∃ b rest, back = b :: rest ∧ isDelimiter b = false := by
  unfold afterValue at behind
  split at behind
  · cases behind
  · next b rest =>
    split at behind
    · cases behind
    · next other =>
      cases behind
      exact ⟨rfl, b, rest, rfl, by simpa using other⟩

/-- The number of bytes that are still to be read: none, once reading has failed. -/
def left (s : Stream) : Nat := if s.failed then 0 else s.rest.length

theorem left_le (s : Stream) : s.left ≤ s.rest.length := by
  unfold left
  split <;> omega

/-- **Whatever is not the end uses up some of the bytes**, if the input is complete. -/
theorem left_next_lt (closed : s.ending = .closed) (more : s.next.1 ≠ .done) :
    s.next.2.left < s.left := by
  have begun : ∀ {first : UInt8} {tail : Bytes}, skipBlanks s.rest = first :: tail →
      (first :: tail).length ≤ s.rest.length := fun found => found ▸ length_skipBlanks_le s.rest
  have gives := s.gives_next
  generalize s.next.1 = item, s.next.2 = t at gives more
  cases gives with
  | past | ended => exact absurd rfl more
  | cutOff _ _ broken =>
    rw [closed] at broken
    cases broken
  | malformed working found =>
    have some := begun found
    simp only [List.length_cons] at some
    simp only [left, working]
    show 0 < s.rest.length
    omega
  | @whole first tail back v working found read | @lost first tail back v f working found read =>
    have less := length_valueOf_lt read
    have some := begun found
    simp only [left, working]
    show back.length < s.rest.length
    omega

end Json.Stream

/-! ## Calls -/

namespace Reader

/-- The call asks its builder what it makes of a value. -/
def Call.asks : Call → Bool
  | handed _ _ => true
  | _ => false

/-- The call finds the end of the stream. -/
def Call.ends : Call → Bool
  | ended => true
  | _ => false

/-- What the call hears from the stream. -/
def Call.item : Call → Json.Item
  | handed v _ => .value v
  | undecoded _ f => .fault f
  | ended => .done

/-- The reader after calls with the given builders, of complete input. -/
def after (bytes : Bytes) (builds : List Builder) : Reader :=
  (calls builds (ofBytes bytes .closed)).2

/-- What these calls come to. -/
def answers (bytes : Bytes) (builds : List Builder) : List Call :=
  (calls builds (ofBytes bytes .closed)).1

variable {r : Reader} {build other : Builder} {builds : List Builder} {c : Call}

theorem tokens_eq (c : Call) : c.tokens = c.asks.toNat := by
  cases c <;> rfl

theorem token_eq_done_iff : c.token = .done ↔ c = .ended := by
  cases c with
  | handed v made => cases made <;> simp [Call.token]
  | undecoded | ended => simp [Call.token]

theorem item_call (build : Builder) (r : Reader) : (r.call build).item = r.stream.next.1 := by
  unfold call
  split <;> simp_all [Call.item]

theorem asks_call (build : Builder) (r : Reader) : (r.call build).asks = r.asksBuilder := by
  unfold call asksBuilder
  cases r.stream.next with
  | mk item s => cases item <;> rfl

theorem stream_next (build : Builder) (r : Reader) :
    (r.next build).2.stream = r.stream.next.2 := by
  rw [next_snd]

theorem tokensRead_next (build : Builder) (r : Reader) :
    (r.next build).2.tokensRead = r.tokensRead + (r.call build).asks.toNat := by
  rw [next_snd, tokens_eq]

theorem call_eq_ended_iff : r.call build = .ended ↔ r.stream.next.1 = .done := by
  rw [← item_call build]
  cases r.call build <;> simp [Call.item]

theorem ends_call_iff : (r.call build).ends = true ↔ r.stream.next.1 = .done := by
  have ends : (r.call build).ends = true ↔ r.call build = .ended := by
    cases r.call build <;> simp [Call.ends]
  exact ends.trans call_eq_ended_iff

theorem result_of_handed {v : Json} {result : Except Failure (List Record)}
    (made : r.call build = .handed v result) : result = build v := by
  unfold call at made
  split at made <;> cases made
  rfl

theorem count_of_undecoded {count : Nat} {f : Json.Fault}
    (found : r.call build = .undecoded count f) : count = r.tokensRead := by
  unfold call at found
  split at found <;> cases found
  rfl

theorem call_eq_of_unasked (unasked : r.asksBuilder = false) : r.call build = r.call other := by
  unfold call asksBuilder at *
  cases given : r.stream.next with
  | mk item s =>
    rw [given] at unasked
    cases item with
    | value v => cases unasked
    | fault | done => rfl

/-- The reader behind a call is the same whatever the builder is. -/
theorem next_snd_eq (build other : Builder) (r : Reader) :
    (r.next build).2 = (r.next other).2 := by
  rw [next_snd, next_snd, tokens_eq, tokens_eq, asks_call, asks_call]

/-- **What builders make of their values changes nothing**: other builders are handed the same values,
and the faults and the end stand where they stood. -/
theorem calls_heard {others : List Builder} (same : others.length = builds.length) :
    (calls others r).1.map Call.item = (calls builds r).1.map Call.item ∧
      (calls others r).2 = (calls builds r).2 := by
  induction builds generalizing r others with
  | nil =>
    obtain rfl := List.eq_nil_of_length_eq_zero same
    exact ⟨rfl, rfl⟩
  | cons build builds ih =>
    obtain ⟨other, others, rfl⟩ := List.exists_cons_of_length_eq_add_one same
    obtain ⟨items, last⟩ := ih (r := (r.next build).2) (Nat.succ.inj same)
    rw [calls, calls, next_snd_eq other build]
    refine ⟨?_, last⟩
    rw [List.map_cons, List.map_cons, items, item_call, item_call]

/-- The tokens that are counted are the calls that asked their builder. -/
theorem tokensRead_calls (builds : List Builder) (r : Reader) :
    (calls builds r).2.tokensRead = r.tokensRead + (calls builds r).1.countP Call.asks := by
  induction builds generalizing r with
  | nil => rfl
  | cons build builds ih =>
    rw [calls, ih, tokensRead_next, List.countP_cons]
    cases (r.call build).asks with
    | false => simp
    | true => simp [Nat.add_assoc, Nat.add_comm 1]

theorem ending_calls (builds : List Builder) (r : Reader) :
    (calls builds r).2.stream.ending = r.stream.ending := by
  induction builds generalizing r with
  | nil => rfl
  | cons build builds ih => rw [calls, ih, stream_next, Json.Stream.ending_next]

/-- **Behind a call that found the end, all calls find it.** -/
theorem calls_pairwise (builds : List Builder) (r : Reader) :
    (calls builds r).1.Pairwise fun c d => c = .ended → d = .ended := by
  induction builds generalizing r with
  | nil => exact .nil
  | cons build builds ih =>
    rw [calls, List.pairwise_cons]
    refine ⟨fun d hd finished => ?_, ih _⟩
    have behind : (r.next build).2.stream.next.1 = .done := by
      rw [stream_next]
      exact Json.Stream.next_of_over (call_eq_ended_iff.1 finished)
    rw [calls_of_over builds behind] at hd
    exact List.eq_of_mem_replicate hd

/-- **There are no more calls before the end than there are bytes.** -/
theorem countP_calls_le (builds : List Builder) (closed : r.stream.ending = .closed) :
    (calls builds r).1.countP (fun c => !c.ends) ≤ r.stream.left := by
  induction builds generalizing r with
  | nil => exact Nat.zero_le _
  | cons build builds ih =>
    have behind : (r.next build).2.stream.ending = .closed := by
      rw [stream_next, Json.Stream.ending_next, closed]
    have later := ih behind
    rw [stream_next] at later
    rw [calls, List.countP_cons]
    by_cases finished : r.stream.next.1 = .done
    · -- then the calls behind find the end as well
      have none : (calls builds (r.next build).2).1.countP (fun c => !c.ends) = 0 := by
        rw [calls_of_over builds (by rw [stream_next]; exact Json.Stream.next_of_over finished),
          List.countP_replicate]
        rfl
      rw [none, ends_call_iff.2 finished]
      exact Nat.zero_le _
    · have less := Json.Stream.left_next_lt closed finished
      split <;> omega

/-- A fault is the last thing that is read, except behind a value that is lost because it does not end
itself and is followed by a byte that is no delimiter: reading goes on at that byte. -/
theorem resumes_of_undecoded {count : Nat} {f : Json.Fault} (closed : r.stream.ending = .closed)
    (found : r.call build = .undecoded count f) :
    (∀ more, (calls more (r.next build).2).1 = List.replicate more.length .ended) ∨
      f = .malformed .trailingCharacters ∧ ∃ first tail v b rest,
        Json.skipBlanks r.stream.rest = first :: tail ∧ Json.Stream.endsItself first = false ∧
          Json.valueOf .closed Json.depthLimit (first :: tail) = .ok (v, b :: rest) ∧
          Json.Stream.isDelimiter b = false ∧
          (r.next build).2.stream = { rest := b :: rest, ending := .closed } := by
  have fault : r.stream.next.1 = .fault f := by
    rw [← item_call build, found]
    rfl
  have stopped : (r.next build).2.stream.failed = true →
      ∀ more, (calls more (r.next build).2).1 = List.replicate more.length .ended :=
    fun failed more => calls_of_over more (Json.Stream.next_of_failed failed)
  have gives := r.stream.gives_next
  rw [fault, ← stream_next build] at gives
  generalize after : (r.next build).2.stream = s at gives
  cases gives with
  | cutOff | malformed => exact .inl (stopped (by rw [after]))
  | @lost first tail back v _ working blanks read lasting behind =>
    rw [closed] at behind read
    obtain ⟨rfl, b, rest, rfl, other⟩ := Json.Stream.afterValue_closed_eq_error behind
    exact .inr ⟨rfl, first, tail, v, b, rest, blanks, lasting, read, other, by rw [closed, working]⟩

/-- **All tokens are read in finitely many calls.** The last of them finds the end or a failure, and it is
the first that does. -/
theorem exists_readAll (r : Reader) (closed : r.stream.ending = .closed) :
    ∃ n ≤ r.stream.left, ∃ (groups : List (List Record)) (failure : Option Failure),
      (calls (List.replicate n standard) r).1.map Call.token = groups.map .records ∧
        ((calls (List.replicate n standard) r).2.next standard).1 = failure.elim .done .failed ∧
          r.readAll = {
            records := groups.flatten
            tokens := (calls (List.replicate n standard) r).2.tokensRead
            failure := failure } := by
  induction h : r.stream.left using Nat.strongRecOn generalizing r with
  | _ size ih =>
    cases given : r.stream.next with
    | mk item s =>
      cases item with
      | done =>
        have last := next_of_done given
        refine ⟨0, Nat.zero_le _, [], none, rfl, ?_, ?_⟩
        · show (r.next standard).1 = _
          rw [last]
          rfl
        · rw [readAll_of_done last]
          rfl
      | fault f =>
        have last := next_of_fault given
        refine ⟨0, Nat.zero_le _, [], some (decodeFailure r.tokensRead f), rfl, ?_, ?_⟩
        · show (r.next standard).1 = _
          rw [last]
          rfl
        · rw [readAll_of_failed last]
          rfl
      | value v =>
        have first := next_of_value given
        have less : s.left < size := by
          have := Json.Stream.left_next_lt closed (by rw [given]; nofun)
          rwa [given, h] at this
        have behind : (r.next standard).2.stream = s := by rw [stream_next, given]
        obtain ⟨n, few, groups, failure, records, last, all⟩ :=
          ih s.left less (r.next standard).2
            (by rw [stream_next, Json.Stream.ending_next, closed]) (by rw [behind])
        refine ⟨n + 1, by omega, Record.ofToken v :: groups, failure, ?_, last, ?_⟩
        · have here : (r.call standard).token = .records (Record.ofToken v) := by
            rw [← next_fst, first]
          rw [List.replicate_succ, calls, List.map_cons, records, here]
          rfl
        · rw [first] at all
          rw [readAll_of_records first, all, List.replicate_succ, calls, first]
          rfl

/-! ## The books -/

/-- How a reader of complete input keeps its books, after calls with the given builders. -/
structure KeepsCount (bytes : Bytes) (builds : List Builder) : Prop where
  /-- What builders are handed, and where the faults and the end stand, is the same for any others. -/
  heard : ∀ others, others.length = builds.length →
    (answers bytes others).map Call.item = (answers bytes builds).map Call.item
  /-- The tokens read are the calls that asked their builder. -/
  counted : (after bytes builds).tokensRead = (answers bytes builds).countP Call.asks
  /-- The calls that ask their builder are those for which there is a value. -/
  asked : ∀ build, ((after bytes builds).call build).asks = (after bytes builds).asksBuilder
  /-- A call that asks its builder gives what this makes of the value, and the token is counted, also if
  the builder fails. -/
  handed : ∀ build, (after bytes builds).asksBuilder = true → ∃ v,
    (after bytes builds).call build = .handed v (build v) ∧
      ((after bytes builds).next build).1 =
        (match build v with
        | .ok records => .records records
        | .error failure => .failed failure) ∧
      ((after bytes builds).next build).2.tokensRead = (after bytes builds).tokensRead + 1
  /-- Any other call has nothing to do with its builder, and counts nothing. -/
  unasked : ∀ build other, (after bytes builds).asksBuilder = false →
    (after bytes builds).next build = (after bytes builds).next other ∧
      ((after bytes builds).next build).2.tokensRead = (after bytes builds).tokensRead
  /-- A value that cannot be decoded is named as the token behind those that were read. -/
  named : ∀ build count fault, (after bytes builds).call build = .undecoded count fault →
    ((after bytes builds).next build).1 = .failed {
      contexts := ["failed to decode token " ++
        toString (((after bytes builds).next build).2.tokensRead + 1)]
      cause := .json fault }
  /-- It is the last one, except for a value that does not end itself, and is followed by a byte that is
  no delimiter: reading goes on at that byte. -/
  resumes : ∀ build count fault, (after bytes builds).call build = .undecoded count fault →
    (∀ more, (calls more ((after bytes builds).next build).2).1 =
      List.replicate more.length .ended) ∨
    fault = .malformed .trailingCharacters ∧ ∃ first tail v b rest,
      Json.skipBlanks (after bytes builds).stream.rest = first :: tail ∧
        Json.Stream.endsItself first = false ∧
        Json.valueOf .closed Json.depthLimit (first :: tail) = .ok (v, b :: rest) ∧
        Json.Stream.isDelimiter b = false ∧
        ((after bytes builds).next build).2.stream = { rest := b :: rest, ending := .closed }
  /-- The end is what the calls at the end give, and no others. -/
  ends : ∀ build, ((after bytes builds).next build).1 = .done ↔
    (after bytes builds).call build = .ended
  /-- Behind such a call there are only such calls. -/
  sticky : (answers bytes builds).Pairwise fun c d => c = .ended → d = .ended
  /-- There are no more other calls than bytes. -/
  bounded : (answers bytes builds).countP (fun c => !c.ends) ≤ bytes.length
  /-- So are the calls by which all tokens are read, up to the first that finds the end or a failure. -/
  readAll : ∃ n ≤ bytes.length, ∃ (groups : List (List Record)) (failure : Option Failure),
    (answers bytes (List.replicate n standard)).map Call.token = groups.map .records ∧
      ((after bytes (List.replicate n standard)).next standard).1 = failure.elim .done .failed ∧
        (ofBytes bytes .closed).readAll = {
          records := groups.flatten
          tokens := (after bytes (List.replicate n standard)).tokensRead
          failure := failure }

/-- **A reader keeps its books right**, whatever the bytes and the builders are. -/
theorem keepsCount (bytes : Bytes) (builds : List Builder) : KeepsCount bytes builds where
  heard := fun others same => (calls_heard same).1
  counted := (tokensRead_calls builds _).trans (Nat.zero_add _)
  asked := fun build => asks_call build _
  handed := by
    intro build asks
    have counted := tokensRead_next build (after bytes builds)
    have token := next_fst build (after bytes builds)
    rw [← asks_call build] at asks
    cases made : (after bytes builds).call build with
    | handed v result =>
      obtain rfl : result = build v := result_of_handed made
      rw [made] at counted token
      refine ⟨v, rfl, ?_, counted⟩
      rw [token]
      cases build v <;> rfl
    | undecoded | ended =>
      rw [made] at asks
      cases asks
  unasked := by
    intro build other unasked
    have counted := tokensRead_next build (after bytes builds)
    rw [asks_call, unasked] at counted
    refine ⟨Prod.ext ?_ (next_snd_eq build other _), counted⟩
    rw [next_fst, next_fst, call_eq_of_unasked unasked]
  named := by
    intro build count fault found
    have counted := tokensRead_next build (after bytes builds)
    rw [found] at counted
    have number := count_of_undecoded found
    rw [next_fst, found, counted, number]
    rfl
  resumes := by
    intro build count fault found
    have ending := ending_calls builds (ofBytes bytes .closed)
    exact resumes_of_undecoded ending found
  ends := fun build => by rw [next_fst, token_eq_done_iff]
  sticky := calls_pairwise builds _
  bounded := (countP_calls_le builds rfl).trans (Json.Stream.left_le _)
  readAll := by
    obtain ⟨n, few, all⟩ := exists_readAll (ofBytes bytes .closed) rfl
    exact ⟨n, few.trans (Json.Stream.left_le _), all⟩

/-- A number with a letter right behind it: the number is lost, and the letter starts no value. -/
example : answers [0x31, 0x78] [standard, standard, standard] =
    [.undecoded 0 (.malformed .trailingCharacters), .undecoded 0 (.malformed .expectedValue), .ended] := by
  cbv

end Reader

end BatchPool
