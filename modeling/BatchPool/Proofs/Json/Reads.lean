import BatchPool.Json.Quoted

/-!
# What a reader takes from its input

A reader takes the front of its input. With anything else behind the same front it reads the same, as
long as the reader does not have to know what stands there.

* `Json.Reads`: the front that was read, and what may stand behind it. `Reads.cons`: one byte more was
  read before.
* `Json.reads_text`: a text ends itself, so anything may stand behind it.
-/

namespace BatchPool

namespace Json

variable {α : Type} {e : Ending} {input out : Bytes}

/-- The value was read from a front of the input, and it is read from any input with that front, as
long as what stands behind it is allowed. -/
def Reads (read : Ending → Bytes → Except Fault (α × Bytes)) (may : Ending → Bytes → Prop)
    (input : Bytes) (a : α) (out : Bytes) : Prop :=
  ∃ front, input = front ++ out ∧ ∀ e rest, may e rest → read e (front ++ rest) = .ok (a, rest)

/-- Anything may stand behind. -/
def Anything (_ : Ending) (_ : Bytes) : Prop := True

section

variable {read read' : Ending → Bytes → Except Fault (α × Bytes)}
  {may may' : Ending → Bytes → Prop} {a : α}

/-- One byte is read, and another reader goes on. -/
theorem Reads.cons {b : UInt8} (h : Reads read' may input a out)
    (same : ∀ e rest, read e (b :: rest) = read' e rest) : Reads read may (b :: input) a out := by
  obtain ⟨front, rfl, all⟩ := h
  exact ⟨b :: front, rfl, fun e rest allowed => (same e _).trans (all e rest allowed)⟩

/-- Another reader does what is to be read. -/
theorem Reads.congr (h : Reads read' may' input a out) (same : ∀ e rest, read e rest = read' e rest)
    (allowed : ∀ e rest, may e rest → may' e rest) : Reads read may input a out := by
  obtain ⟨front, rfl, all⟩ := h
  exact ⟨front, rfl, fun e rest h => (same e _).trans (all e rest (allowed e rest h))⟩

end

/-! ## Blanks and literals -/

/-- The blanks and the first byte behind them are found, whatever comes then. -/
theorem exists_first {b : UInt8} {rest : Bytes} (h : skipBlanks input = b :: rest) :
    ∃ front, input = front ++ rest ∧ ∀ rest', skipBlanks (front ++ rest') = b :: rest' := by
  induction input with
  | nil => cases h
  | cons c tail ih =>
    by_cases blank : isBlank c = true
    · obtain ⟨front, split, all⟩ := ih (by simpa [skipBlanks, blank] using h)
      refine ⟨c :: front, by rw [split]; rfl, fun rest' => ?_⟩
      simpa [skipBlanks, blank] using all rest'
    · obtain ⟨rfl, rfl⟩ : c = b ∧ tail = rest := by simpa [skipBlanks, blank] using h
      exact ⟨[c], rfl, fun rest' => by simp [skipBlanks, blank]⟩

theorem literal_eq_ok {word : Bytes} : literal e word input = .ok out ↔ input = word ++ out := by
  induction word generalizing input with
  | nil => simp [literal]
  | cons c word ih =>
    cases input with
    | nil => simp [literal]
    | cons b input =>
      by_cases same : b = c
      · simp [literal, same, ih]
      · simp [literal, same]

/-! ## Texts -/

theorem reads_hexFour {n : Nat} (h : hexFour e input = .ok (n, out)) :
    Reads hexFour Anything input n out := by
  unfold hexFour at h
  split at h
  · next a b c d rest =>
    split at h
    · next m number =>
      cases h
      exact ⟨[a, b, c, d], rfl, fun e rest _ => by simp [hexFour, number]⟩
    · cases h
  · cases h

theorem reads_codeUnits {c : Char} (h : codeUnits e input = .ok (c, out)) :
    Reads codeUnits Anything input c out := by
  unfold codeUnits at h
  split at h
  · cases h
  next n rest first =>
  obtain ⟨front, rfl, all⟩ := reads_hexFour first
  split at h
  · cases h
  next single =>
  split at h
  case isFalse notLeading =>
    cases h
    exact ⟨front, rfl, fun e rest _ => by simp [codeUnits, all e rest trivial, single, notLeading]⟩
  case isTrue leading =>
    -- The second half stands behind a backslash and a `u`.
    split at h
    · cases h
    next b rest =>
    split at h
    case isFalse => cases h
    case isTrue backslash =>
      split at h
      · cases h
      next c rest =>
      split at h
      case isFalse => cases h
      case isTrue u =>
        split at h
        · cases h
        next m rest second =>
        obtain ⟨back, rfl, others⟩ := reads_hexFour second
        split at h
        case isFalse => cases h
        case isTrue trailing =>
          simp only [Except.ok.injEq, Prod.mk.injEq] at h
          obtain ⟨rfl, rfl⟩ := h
          refine ⟨front ++ b :: c :: back, by simp, fun e rest _ => ?_⟩
          rw [List.append_assoc, codeUnits, all e _ trivial]
          simp only [List.cons_append, single, leading, backslash, u, others e rest trivial, trailing,
            Bool.false_eq_true, if_true, if_false]

theorem reads_escaped {bytes : Bytes} (h : escaped e input = .ok (bytes, out)) :
    Reads escaped Anything input bytes out := by
  cases input with
  | nil => cases h
  | cons b input =>
    simp only [escaped] at h
    split at h
    · next c letter =>
      cases h
      exact ⟨[b], rfl, fun e rest _ => by simp [escaped, letter]⟩
    · next noLetter =>
      split at h
      case isFalse => cases h
      case isTrue u =>
        split at h
        · next c rest unit =>
          cases h
          obtain ⟨front, rfl, all⟩ := reads_codeUnits unit
          refine ⟨b :: front, rfl, fun e rest _ => ?_⟩
          simp only [List.cons_append, escaped, noLetter, if_pos u, all e rest trivial]
        · cases h

theorem textBytes_quote (e : Ending) (read rest : Bytes) :
    textBytes e read (0x22 :: rest) = .ok (read.reverse, rest) := by
  rw [textBytes.eq_def]
  rfl

theorem textBytes_escape {read bytes rest after : Bytes}
    (h : escaped e rest = .ok (bytes, after)) :
    textBytes e read (0x5C :: rest) = textBytes e (bytes.reverse ++ read) after := by
  rw [textBytes.eq_def]
  dsimp only
  rw [if_neg (by decide), if_pos rfl]
  split
  · next found => cases h.symm.trans found; rfl
  · next fault => cases h.symm.trans fault

theorem textBytes_plain {read rest : Bytes} {b : UInt8} (notQuote : b ≠ 0x22)
    (notBackslash : b ≠ 0x5C) (notControl : ¬b < 0x20) :
    textBytes e read (b :: rest) = textBytes e (b :: read) rest := by
  rw [textBytes.eq_def]
  dsimp only
  rw [if_neg notQuote, if_neg notBackslash, if_neg notControl]

theorem reads_textBytes {read bytes : Bytes} (h : textBytes e read input = .ok (bytes, out)) :
    Reads (textBytes · read ·) Anything input bytes out := by
  fun_induction textBytes e read input with
  | case1 => cases h
  | case2 read rest =>
    cases h
    exact ⟨[0x22], rfl, fun e rest _ => textBytes_quote e read rest⟩
  | case3 read rest bytes after escape notQuote ih =>
    obtain ⟨front, rfl, all⟩ := reads_escaped escape
    obtain ⟨back, rfl, others⟩ := ih h
    refine ⟨0x5C :: front ++ back, by simp, fun e rest _ => ?_⟩
    show textBytes e read (0x5C :: front ++ back ++ rest) = _
    rw [List.append_assoc, List.cons_append, textBytes_escape (all e _ trivial)]
    exact others e rest trivial
  | case4 => cases h
  | case5 => cases h
  | case6 read b rest notQuote notBackslash notControl ih =>
    exact (ih h).cons fun _ _ => textBytes_plain notQuote notBackslash notControl

theorem reads_text {s : String} (h : text e input = .ok (s, out)) :
    Reads text Anything input s out := by
  unfold text at h
  split at h
  · cases h
  next bytes rest body =>
  obtain ⟨front, rfl, all⟩ := reads_textBytes body
  split at h
  · next s decoded =>
    cases h
    refine ⟨front, rfl, fun e rest _ => ?_⟩
    have body : textBytes e [] (front ++ rest) = .ok (bytes, rest) := all e rest trivial
    rw [text, body]
    simp only [decoded]
  · cases h

end Json

end BatchPool
