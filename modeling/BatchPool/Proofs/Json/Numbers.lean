import BatchPool.Json.Stream
import BatchPool.Proofs.Json.Reads
import Mathlib.Data.List.TakeWhile

/-!
# What a number takes from its input

A number goes on as far as it can, so the reader looks at the byte behind it.

* `Json.Parted`: the end of complete input, or a delimiter. A number is read in the same way with any
  of them behind it (`Json.reads_number`).
* `Json.Unnumbered`: what ends digits.
* `Json.fractionEnd`, `Json.numberEnd`: how a number goes on behind its digits.
-/

namespace BatchPool

namespace Json

variable {e : Ending} {input out : Bytes}

/-- What stands behind ends a value of any kind: a delimiter, or the end of complete input. -/
def Parted (e : Ending) (rest : Bytes) : Prop := Stream.afterValue e rest = .ok ()

/-- What stands behind does not start with a digit. -/
def Unnumbered (rest : Bytes) : Prop := ∀ b ∈ rest.head?, isDigit b = false

/-! ## What stands behind -/

/-- A delimiter is no part of a number. -/
theorem not_number_of_isDelimiter {b : UInt8} (h : Stream.isDelimiter b = true) :
    isDigit b = false ∧ b ≠ 0x2E ∧ b ≠ 0x65 ∧ b ≠ 0x45 := by
  simp only [Stream.isDelimiter, isBlank, Bool.or_eq_true, beq_iff_eq] at h
  obtain ((((((((((rfl | rfl) | rfl) | rfl) | rfl) | rfl) | rfl) | rfl) | rfl) | rfl) | rfl) := h <;>
    decide

theorem parted_iff {rest : Bytes} : Parted e rest ↔
    (rest = [] ∧ e = .closed) ∨ ∃ b tail, rest = b :: tail ∧ Stream.isDelimiter b = true := by
  cases rest with
  | nil => cases e <;> simp [Parted, Stream.afterValue]
  | cons b tail => simp [Parted, Stream.afterValue]

theorem Parted.unnumbered {rest : Bytes} (h : Parted e rest) : Unnumbered rest := by
  obtain ⟨rfl, -⟩ | ⟨b, tail, rfl, delimiter⟩ := parted_iff.1 h
  · simp [Unnumbered]
  · simpa [Unnumbered] using (not_number_of_isDelimiter delimiter).1

theorem atEnd_of_parted {rest : Bytes} (h : Parted e rest) (value : Except Fault Json) :
    atEnd e rest value = value.map fun v => (v, rest) := by
  obtain ⟨rfl, rfl⟩ | ⟨b, tail, rfl, -⟩ := parted_iff.1 h
  · rfl
  · cases e <;> rfl

theorem atEnd_eq_ok {rest : Bytes} {value : Except Fault Json} {v : Json}
    (h : atEnd e rest value = .ok (v, out)) : value = .ok v ∧ out = rest := by
  cases value <;> cases e <;> cases rest <;> simp_all [atEnd, Except.map]

/-! ## Digits -/

/-- An input is its digits, and what stands behind them. -/
theorem exists_digits (input : Bytes) : ∃ ds rest, input = ds ++ rest ∧
    (∀ d ∈ ds, isDigit d = true) ∧ Unnumbered rest := by
  refine ⟨input.takeWhile isDigit, input.dropWhile isDigit,
    List.takeWhile_append_dropWhile.symm, fun _ => List.mem_takeWhile_imp, fun b hb => ?_⟩
  have other := List.head?_dropWhile_not isDigit input
  rw [Option.mem_def.1 hb] at other
  exact other

theorem Unnumbered.append {front rest rest' : Bytes} (h : Unnumbered (front ++ rest))
    (h' : Unnumbered rest') : Unnumbered (front ++ rest') := by
  cases front with
  | nil => exact h'
  | cons => exact h

theorem digits_append {ds rest : Bytes} (digits : ∀ d ∈ ds, isDigit d = true)
    (parted : Unnumbered rest) :
    (ds ++ rest).takeWhile isDigit = ds ∧ (ds ++ rest).dropWhile isDigit = rest := by
  rw [List.takeWhile_append_of_pos digits, List.dropWhile_append_of_pos digits]
  cases rest with
  | nil => simp
  | cons b rest =>
    have none : isDigit b = false := parted b rfl
    simp [none]

/-! ## Exponents -/

theorem exponentDigits_of_unnumbered {rest : Bytes} (n : Nat) (h : Unnumbered rest) :
    exponentDigits n rest = (.small n, rest) := by
  cases rest with
  | nil => rfl
  | cons b rest =>
    have none : isDigit b = false := h b rfl
    simp [exponentDigits, none]

theorem reads_exponentDigits_small {n k : Nat} (h : exponentDigits n input = (.small k, out)) :
    ∃ front, input = front ++ out ∧
      ∀ rest, Unnumbered rest → exponentDigits n (front ++ rest) = (.small k, rest) := by
  induction input generalizing n with
  | nil =>
    cases h
    exact ⟨[], rfl, fun rest => exponentDigits_of_unnumbered _⟩
  | cons b input ih =>
    simp only [exponentDigits] at h
    split at h
    case isTrue digit =>
      split at h
      case isTrue fits =>
        obtain ⟨front, rfl, all⟩ := ih h
        refine ⟨b :: front, rfl, fun rest parted => ?_⟩
        rw [List.cons_append, exponentDigits, if_pos digit, if_pos fits, all rest parted]
      case isFalse => cases h
    case isFalse =>
      cases h
      exact ⟨[], rfl, fun rest => exponentDigits_of_unnumbered _⟩

theorem reads_exponentDigits_huge {n : Nat} (h : exponentDigits n input = (.huge, out)) :
    ∃ front, input = front ++ out ∧ ∀ rest, exponentDigits n (front ++ rest) = (.huge, rest) := by
  induction input generalizing n with
  | nil => cases h
  | cons b input ih =>
    simp only [exponentDigits] at h
    split at h
    case isTrue digit =>
      split at h
      case isTrue fits =>
        obtain ⟨front, rfl, all⟩ := ih h
        refine ⟨b :: front, rfl, fun rest => ?_⟩
        rw [List.cons_append, exponentDigits, if_pos digit, if_pos fits, all rest]
      case isFalse tooLarge =>
        cases h
        exact ⟨[b], rfl, fun rest => by
          rw [List.singleton_append, exponentDigits, if_pos digit, if_neg tooLarge]⟩
    case isFalse => cases h

/-- The sign is read whatever stands behind it and the first digit. -/
theorem exists_exponentSign {minus : Bool} {b : UInt8} {rest : Bytes}
    (h : exponentSign input = (minus, b :: rest)) : ∃ front, input = front ++ b :: rest ∧
      ∀ rest', exponentSign (front ++ b :: rest') = (minus, b :: rest') := by
  cases input with
  | nil => cases h
  | cons c input =>
    simp only [exponentSign] at h
    split at h
    case isTrue plus =>
      cases h
      exact ⟨[c], rfl, fun rest' => by simp [exponentSign, plus]⟩
    case isFalse notPlus =>
      split at h
      case isTrue sign =>
        cases h
        exact ⟨[c], rfl, fun rest' => by simp [exponentSign, sign]⟩
      case isFalse notMinus =>
        cases h
        exact ⟨[], rfl, fun rest' => by simp [exponentSign, notPlus, notMinus]⟩

theorem reads_exponent {negative : Bool} {n : Nat} {start : Int} {v : Json}
    (h : exponent e negative n start input = .ok (v, out)) :
    Reads (exponent · negative n start ·) Parted input v out := by
  unfold exponent at h
  split at h
  · cases h
  next minus b rest sign =>
  obtain ⟨front, rfl, signs⟩ := exists_exponentSign sign
  split at h
  case isFalse => cases h
  case isTrue digit =>
    split at h
    · next k after small =>
      obtain ⟨value, rfl⟩ := atEnd_eq_ok h
      obtain ⟨back, rfl, all⟩ := reads_exponentDigits_small small
      refine ⟨front ++ b :: back, by simp, fun e rest parted => ?_⟩
      show exponent e negative n start (front ++ b :: back ++ rest) = _
      rw [List.append_assoc, List.cons_append, exponent, signs]
      simp only [if_pos digit, all rest parted.unnumbered, atEnd_of_parted parted, value]
      rfl
    · next after huge =>
      obtain ⟨back, rfl, all⟩ := reads_exponentDigits_huge huge
      split at h
      case isTrue => cases h
      case isFalse inRange =>
        obtain ⟨value, rfl⟩ := atEnd_eq_ok h
        refine ⟨front ++ b :: (back ++ after.takeWhile isDigit), by simp, fun e rest parted => ?_⟩
        have digits : ∀ d ∈ after.takeWhile isDigit, isDigit d = true := fun _ =>
          List.mem_takeWhile_imp
        show exponent e negative n start (front ++ b :: (back ++ after.takeWhile isDigit) ++ rest) = _
        rw [List.append_assoc, List.cons_append, List.append_assoc, exponent, signs]
        simp only [if_pos digit, all, if_neg inRange, (digits_append digits parted.unnumbered).2,
          atEnd_of_parted parted, value]
        rfl

/-! ## Behind the digits -/

/-- What a number is that goes on behind its fraction. -/
def fractionEnd (e : Ending) (negative : Bool) (n : Nat) (start : Int) :
    Bytes → Except Fault (Json × Bytes)
  | [] => atEnd e [] (ofDecimal negative n start)
  | b :: rest =>
    if b = 0x65 ∨ b = 0x45 then exponent e negative n start rest
    else atEnd e (b :: rest) (ofDecimal negative n start)

/-- What a number is that goes on behind the digits before its point. -/
def numberEnd (e : Ending) (negative : Bool) (n extra : Nat) (value : Except Fault Json) :
    Bytes → Except Fault (Json × Bytes)
  | [] => atEnd e [] value
  | b :: rest =>
    if b = 0x2E then fraction e negative n extra rest
    else if b = 0x65 ∨ b = 0x45 then exponent e negative n extra rest
    else atEnd e (b :: rest) value

theorem fractionEnd_of_parted {negative : Bool} {n : Nat} {start : Int} {rest : Bytes}
    (h : Parted e rest) : fractionEnd e negative n start rest =
      (ofDecimal negative n start).map fun v => (v, rest) := by
  have ended := atEnd_of_parted h (ofDecimal negative n start)
  obtain ⟨rfl, -⟩ | ⟨b, tail, rfl, delimiter⟩ := parted_iff.1 h
  · exact ended
  · obtain ⟨-, -, small, large⟩ := not_number_of_isDelimiter delimiter
    rw [fractionEnd, if_neg (by simp [small, large]), ended]

theorem numberEnd_of_parted {negative : Bool} {n extra : Nat} {value : Except Fault Json}
    {rest : Bytes} (h : Parted e rest) : numberEnd e negative n extra value rest =
      value.map fun v => (v, rest) := by
  have ended := atEnd_of_parted h value
  obtain ⟨rfl, -⟩ | ⟨b, tail, rfl, delimiter⟩ := parted_iff.1 h
  · exact ended
  · obtain ⟨-, point, small, large⟩ := not_number_of_isDelimiter delimiter
    rw [numberEnd, if_neg point, if_neg (by simp [small, large]), ended]

theorem reads_fractionEnd {negative : Bool} {n : Nat} {start : Int} {v : Json}
    (h : fractionEnd e negative n start input = .ok (v, out)) :
    Reads (fractionEnd · negative n start ·) Parted input v out := by
  have ended : ∀ {rest}, atEnd e rest (ofDecimal negative n start) = .ok (v, out) →
      Reads (fractionEnd · negative n start ·) Parted rest v out := by
    intro rest h
    obtain ⟨value, rfl⟩ := atEnd_eq_ok h
    exact ⟨[], rfl, fun e rest parted => (fractionEnd_of_parted parted).trans (by rw [value]; rfl)⟩
  cases input with
  | nil => exact ended h
  | cons b rest =>
    simp only [fractionEnd] at h
    split at h
    case isTrue letter => exact (reads_exponent h).cons fun _ _ => if_pos letter
    case isFalse => exact ended h

/-! ## Whole numbers -/

theorem fraction_append {negative : Bool} {n extra : Nat} {ds rest : Bytes}
    (digits : ∀ d ∈ ds, isDigit d = true) (nonempty : ds ≠ []) (behind : Unnumbered rest) :
    fraction e negative n extra (ds ++ rest) = fractionEnd e negative (accumulate n ds).1
      (extra - ((ds.length - (accumulate n ds).2.length : Nat) : Int)) rest := by
  obtain ⟨front, back⟩ := digits_append digits behind
  rw [fraction.eq_def, front, back]
  cases ds with
  | nil => exact absurd rfl nonempty
  | cons => cases rest <;> rfl

theorem reads_fraction {negative : Bool} {n extra : Nat} {v : Json}
    (h : fraction e negative n extra input = .ok (v, out)) :
    Reads (fraction · negative n extra ·) Parted input v out := by
  obtain ⟨ds, rest, rfl, digits, behind⟩ := exists_digits input
  have nonempty : ds ≠ [] := by
    rintro rfl
    rw [fraction.eq_def, (digits_append digits behind).1] at h
    dsimp only at h
    split at h <;> cases h
  rw [fraction_append digits nonempty behind] at h
  obtain ⟨front, rfl, all⟩ := reads_fractionEnd h
  refine ⟨ds ++ front, (List.append_assoc ..).symm, fun e rest parted => ?_⟩
  show fraction e negative n extra (ds ++ front ++ rest) = _
  rw [List.append_assoc, fraction_append digits nonempty (behind.append parted.unnumbered)]
  exact all e rest parted

theorem reads_numberEnd {negative : Bool} {n extra : Nat} {value : Except Fault Json} {v : Json}
    (h : numberEnd e negative n extra value input = .ok (v, out)) :
    Reads (numberEnd · negative n extra value ·) Parted input v out := by
  have ended : ∀ {rest}, atEnd e rest value = .ok (v, out) →
      Reads (numberEnd · negative n extra value ·) Parted rest v out := by
    intro rest h
    obtain ⟨rfl, rfl⟩ := atEnd_eq_ok h
    exact ⟨[], rfl, fun e rest parted => numberEnd_of_parted parted⟩
  cases input with
  | nil => exact ended h
  | cons b rest =>
    simp only [numberEnd] at h
    split at h
    case isTrue point => exact (reads_fraction h).cons fun _ _ => if_pos point
    case isFalse noPoint =>
      split at h
      case isTrue letter =>
        exact (reads_exponent h).cons fun _ _ => (if_neg noPoint).trans (if_pos letter)
      case isFalse => exact ended h

theorem number_append {negative : Bool} {ds rest : Bytes} (digits : ∀ d ∈ ds, isDigit d = true)
    (nonempty : ds ≠ []) (behind : Unnumbered rest) : number e negative (ds ++ rest) =
      if ds.head? = some 0x30 ∧ 1 < ds.length then .error (.malformed .invalidNumber)
      else numberEnd e negative (accumulate 0 ds).1 (accumulate 0 ds).2.length
        (if (accumulate 0 ds).2.isEmpty then .ok (ofInteger negative (accumulate 0 ds).1)
          else ofDecimal negative (accumulate 0 ds).1 (accumulate 0 ds).2.length) rest := by
  obtain ⟨front, back⟩ := digits_append digits behind
  cases ds with
  | nil => exact absurd rfl nonempty
  | cons d ds =>
    have digit : isDigit d = true := digits d List.mem_cons_self
    rw [number.eq_def]
    simp only [List.cons_append] at front back ⊢
    rw [if_pos digit, front, back]
    simp only [List.head?_cons, Option.some.injEq]
    cases rest <;> rfl

theorem reads_number {negative : Bool} {v : Json} (h : number e negative input = .ok (v, out)) :
    Reads (number · negative ·) Parted input v out := by
  obtain ⟨ds, rest, rfl, digits, behind⟩ := exists_digits input
  have nonempty : ds ≠ [] := by
    rintro rfl
    cases rest with
    | nil => cases h
    | cons b rest =>
      have other : isDigit b = false := behind b rfl
      rw [List.nil_append, number.eq_def] at h
      simp [other] at h
  rw [number_append digits nonempty behind] at h
  split at h
  · cases h
  next start =>
  obtain ⟨front, rfl, all⟩ := reads_numberEnd h
  refine ⟨ds ++ front, (List.append_assoc ..).symm, fun e rest parted => ?_⟩
  show number e negative (ds ++ front ++ rest) = _
  rw [List.append_assoc, number_append digits nonempty (behind.append parted.unnumbered), if_neg start]
  exact all e rest parted

end Json

end BatchPool
