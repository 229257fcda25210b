import BatchPool.Proofs.Json.Numbers

/-!
# What scalars and punctuation take from their input

* `Json.Behind`: what may stand behind a value, which depends on its first byte.
* `Json.reads_scalar`, `Json.reads_key`: scalars, and keys with their colons.
* `Json.reads_firstMember`, `Json.reads_afterMember`, `Json.reads_afterItem`: what stands between the
  parts of objects and arrays. Behind a comma in an array another item has to begin (`Json.Begun`).
-/

namespace BatchPool

namespace Json

variable {e : Ending} {input out : Bytes}

/-! ## Scalars -/

/-- What may stand behind a value with this first byte. -/
def Behind (first : UInt8) (e : Ending) (rest : Bytes) : Prop :=
  Stream.endsItself first = true ∨ Parted e rest

theorem not_endsItself_of_isDigit {first : UInt8} (digit : isDigit first = true) :
    ¬Stream.endsItself first = true := by
  intro ends
  simp only [Stream.endsItself, Bool.or_eq_true, beq_iff_eq] at ends
  obtain (rfl | rfl) | rfl := ends <;> cases digit

theorem map_literal_eq_ok {word : Bytes} {w v : Json}
    (h : (literal e word input).map (w, ·) = .ok (v, out)) : v = w ∧ input = word ++ out := by
  cases found : literal e word input with
  | error f =>
    rw [found] at h
    cases h
  | ok rest =>
    rw [found] at h
    cases h
    exact ⟨rfl, literal_eq_ok.1 found⟩

theorem map_literal_append (e : Ending) (word rest : Bytes) (w : Json) :
    (literal e word (word ++ rest)).map (w, ·) = .ok (w, rest) := by
  rw [literal_eq_ok.2 rfl]
  rfl

/-- The digit that a number starts with is part of its front. -/
theorem reads_number_cons {first : UInt8} {v : Json}
    (h : number e false (first :: input) = .ok (v, out)) :
    Reads (fun e rest => number e false (first :: rest)) Parted input v out := by
  obtain ⟨front, split, all⟩ := reads_number h
  cases front with
  | nil =>
    have shorter := length_number_lt h
    rw [split] at shorter
    exact absurd shorter (Nat.lt_irrefl _)
  | cons d front =>
    cases split
    exact ⟨front, rfl, all⟩

theorem reads_scalar {first : UInt8} {v : Json} (h : scalar e first input = .ok (v, out)) :
    Reads (scalar · first ·) (Behind first) input v out := by
  unfold scalar at h
  split at h
  case isTrue n =>
    obtain ⟨rfl, rfl⟩ := map_literal_eq_ok h
    exact ⟨_, rfl, fun e rest _ => (if_pos n).trans (map_literal_append ..)⟩
  case isFalse notNull =>
  split at h
  case isTrue t =>
    obtain ⟨rfl, rfl⟩ := map_literal_eq_ok h
    refine ⟨_, rfl, fun e rest _ => ?_⟩
    exact (if_neg notNull).trans ((if_pos t).trans (map_literal_append ..))
  case isFalse notTrue =>
  split at h
  case isTrue f =>
    obtain ⟨rfl, rfl⟩ := map_literal_eq_ok h
    refine ⟨_, rfl, fun e rest _ => ?_⟩
    exact (if_neg notNull).trans ((if_neg notTrue).trans ((if_pos f).trans (map_literal_append ..)))
  case isFalse notFalse =>
  split at h
  case isTrue minus =>
    refine (reads_number h).congr (fun e rest => ?_) fun e rest behind => ?_
    · show scalar e first rest = _
      rw [scalar, if_neg notNull, if_neg notTrue, if_neg notFalse, if_pos minus]
    · exact behind.resolve_left (by rw [minus]; decide)
  case isFalse notMinus =>
  split at h
  case isTrue digit =>
    refine (reads_number_cons h).congr (fun e rest => ?_) fun e rest behind => ?_
    · show scalar e first rest = _
      rw [scalar, if_neg notNull, if_neg notTrue, if_neg notFalse, if_neg notMinus, if_pos digit]
    · exact behind.resolve_left (not_endsItself_of_isDigit digit)
  case isFalse notDigit =>
  split at h
  case isTrue quote =>
    cases quoted : text e input with
    | error f =>
      rw [quoted] at h
      cases h
    | ok p =>
      rw [quoted] at h
      cases h
      obtain ⟨front, rfl, all⟩ := reads_text quoted
      refine ⟨front, rfl, fun e rest _ => ?_⟩
      show scalar e first (front ++ rest) = _
      rw [scalar, if_neg notNull, if_neg notTrue, if_neg notFalse, if_neg notMinus, if_neg notDigit,
        if_pos quote, all e rest trivial]
      rfl
  case isFalse => cases h

/-! ## Punctuation -/

theorem reads_firstMember {s : Separator} (h : firstMember e input = .ok (s, out)) :
    Reads firstMember Anything input s out := by
  unfold firstMember at h
  split at h
  · cases h
  next b rest first =>
  obtain ⟨front, rfl, all⟩ := exists_first first
  split at h
  case isTrue brace =>
    cases h
    exact ⟨front, rfl, fun e rest _ => by rw [firstMember, all]; exact if_pos brace⟩
  case isFalse noBrace =>
    split at h
    case isTrue quote =>
      cases h
      refine ⟨front, rfl, fun e rest _ => ?_⟩
      rw [firstMember, all]
      simp only [if_neg noBrace, if_pos quote]
    case isFalse => cases h

theorem reads_colon (h : colon e input = .ok out) : ∃ front, input = front ++ out ∧
    ∀ e rest, colon e (front ++ rest) = .ok rest := by
  unfold colon at h
  split at h
  · cases h
  next b rest first =>
  obtain ⟨front, rfl, all⟩ := exists_first first
  split at h
  case isTrue sign =>
    cases h
    exact ⟨front, rfl, fun e rest => by rw [colon, all]; exact if_pos sign⟩
  case isFalse => cases h

theorem reads_key {k : String} (h : key e input = .ok (k, out)) : Reads key Anything input k out := by
  unfold key at h
  split at h
  · cases h
  next name rest quoted =>
  obtain ⟨front, rfl, all⟩ := reads_text quoted
  cases sign : colon e rest with
  | error f =>
    rw [sign] at h
    cases h
  | ok after =>
    rw [sign] at h
    cases h
    obtain ⟨back, rfl, others⟩ := reads_colon sign
    refine ⟨front ++ back, (List.append_assoc ..).symm, fun e rest _ => ?_⟩
    rw [List.append_assoc, key, all e _ trivial]
    simp only [others]
    rfl

theorem reads_afterMember {s : Separator} (h : afterMember e input = .ok (s, out)) :
    Reads afterMember Anything input s out := by
  unfold afterMember at h
  split at h
  · cases h
  next b rest first =>
  obtain ⟨front, rfl, all⟩ := exists_first first
  split at h
  case isTrue brace =>
    cases h
    exact ⟨front, rfl, fun e rest _ => by rw [afterMember, all]; exact if_pos brace⟩
  case isFalse noBrace =>
    split at h
    case isFalse => cases h
    case isTrue comma =>
      split at h
      · cases h
      next c rest second =>
      obtain ⟨back, rfl, others⟩ := exists_first second
      split at h
      case isTrue quote =>
        cases h
        refine ⟨front ++ back, (List.append_assoc ..).symm, fun e rest _ => ?_⟩
        rw [List.append_assoc, afterMember, all]
        simp only [if_neg noBrace, if_pos comma, others, if_pos quote]
      case isFalse => split at h <;> cases h

/-- Another item begins. -/
def Begun (rest : Bytes) : Prop := ∃ b tail, skipBlanks rest = b :: tail ∧ b ≠ 0x5D

theorem reads_afterItem {s : Separator} (h : afterItem e input = .ok (s, out)) :
    Reads afterItem (fun _ rest => s = .next → Begun rest) input s out := by
  unfold afterItem at h
  split at h
  · cases h
  next b rest first =>
  obtain ⟨front, rfl, all⟩ := exists_first first
  split at h
  case isTrue bracket =>
    cases h
    exact ⟨front, rfl, fun e rest _ => by rw [afterItem, all]; exact if_pos bracket⟩
  case isFalse noBracket =>
    split at h
    case isFalse => cases h
    case isTrue comma =>
      split at h
      · split at h
        · cases h
        · cases h
          refine ⟨front, rfl, fun e rest begun => ?_⟩
          obtain ⟨c, tail, second, item⟩ := begun rfl
          rw [afterItem, all]
          simp only [if_neg noBracket, if_pos comma, second, if_neg item]
      · cases h

theorem parted_of_skipBlanks {b : UInt8} {rest : Bytes} (h : skipBlanks input = b :: rest)
    (delimiter : Stream.isDelimiter b = true) : Parted e input := by
  refine parted_iff.2 (.inr ?_)
  cases input with
  | nil => cases h
  | cons c tail =>
    refine ⟨c, tail, rfl, ?_⟩
    by_cases blank : isBlank c = true
    · simp [Stream.isDelimiter, blank]
    · obtain ⟨rfl, -⟩ : c = b ∧ tail = rest := by simpa [skipBlanks, blank] using h
      exact delimiter

/-- What may stand behind an item parts it from the rest. -/
theorem parted_of_afterItem {s : Separator × Bytes} {e' : Ending} (h : afterItem e input = .ok s) :
    Parted e' input := by
  unfold afterItem at h
  split at h
  · cases h
  next b rest first =>
  refine parted_of_skipBlanks first ?_
  split at h
  case isTrue bracket => rw [bracket]; decide
  case isFalse =>
    split at h
    case isTrue comma => rw [comma]; decide
    case isFalse => cases h

theorem parted_of_afterMember {s : Separator × Bytes} {e' : Ending}
    (h : afterMember e input = .ok s) : Parted e' input := by
  unfold afterMember at h
  split at h
  · cases h
  next b rest first =>
  refine parted_of_skipBlanks first ?_
  split at h
  case isTrue brace => rw [brace]; decide
  case isFalse =>
    split at h
    case isTrue comma => rw [comma]; decide
    case isFalse => cases h

end Json

end BatchPool
