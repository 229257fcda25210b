import BatchPool.Proofs.Json.Fronts
import Mathlib.Data.List.DropRight

/-!
# What a value takes from its input

* `Json.valueOf`, `Json.itemsOf`, `Json.membersOf`: the readers without the bound on what is left, and
  an equation for each of them. `Json.bodyOf`: a value behind its first byte.
* `Json.exists_front`: a value is a front of its input, and is read in the same way whatever stands behind
  it, as long as that ends it.
* `Json.Stream.Gives`: what the next call of a stream comes to, with all that holds before it.
-/

namespace BatchPool

namespace Json

/-- A value and what stands behind it. -/
def valueOf (e : Ending) (depth : Nat) (input : Bytes) : Except Fault (Json × Bytes) :=
  (value e depth input).map fun p => (p.1, p.2.1)

/-- The items of an array and what stands behind it. -/
def itemsOf (e : Ending) (depth : Nat) (read : List Json) (input : Bytes) :
    Except Fault (List Json × Bytes) :=
  (items e depth read input).map fun p => (p.1, p.2.1)

/-- The members of an object and what stands behind it. -/
def membersOf (e : Ending) (depth : Nat) (read : List (String × Json)) (input : Bytes) :
    Except Fault (List (String × Json) × Bytes) :=
  (members e depth read input).map fun p => (p.1, p.2.1)

variable {e : Ending} {depth : Nat} {input out : Bytes}

/-- An array, behind its bracket. -/
def arrayOf (e : Ending) : Nat → Bytes → Except Fault (Json × Bytes)
  | 0, _ => .error (.malformed .tooDeep)
  | depth + 1, input =>
    match skipBlanks input with
    | [] => .error (endFault e .list)
    | c :: after =>
      if c = 0x5D then .ok (.arr [], after)
      else (itemsOf e depth [] input).map fun p => (.arr p.1, p.2)

/-- An object, behind its brace. -/
def objectOf (e : Ending) : Nat → Bytes → Except Fault (Json × Bytes)
  | 0, _ => .error (.malformed .tooDeep)
  | depth + 1, input =>
    match firstMember e input with
    | .error f => .error f
    | .ok (.close, after) => .ok (.obj [], after)
    | .ok (.next, after) => (membersOf e depth [] after).map fun p => (.obj p.1, p.2)

/-- A value behind its first byte. -/
def bodyOf (e : Ending) (depth : Nat) (first : UInt8) (input : Bytes) : Except Fault (Json × Bytes) :=
  if first = 0x5B then arrayOf e depth input
  else if first = 0x7B then objectOf e depth input
  else scalar e first input

theorem valueOf_eq : valueOf e depth input =
    match skipBlanks input with
    | [] => .error (endFault e .value)
    | first :: rest => bodyOf e depth first rest := by
  rw [valueOf, value.eq_def]
  split
  · next h => simp only [h]; rfl
  · next b rest h =>
    simp only [h, bodyOf]
    split
    · split
      · rfl
      · split
        · next h' => simp only [arrayOf, h']; rfl
        · next h' =>
          simp only [arrayOf, h']
          split
          · rfl
          · rw [itemsOf]
            cases items e _ [] rest <;> rfl
    · split
      · split
        · rfl
        · split
          · next h' => simp only [objectOf, h']; rfl
          · next h' => simp only [objectOf, h']; rfl
          · next h' =>
            simp only [objectOf, h', membersOf]
            cases members e _ [] _ <;> rfl
      · split
        · next h' => simp only [h']; rfl
        · next h' => simp only [h']; rfl

theorem valueOf_of_ok {v : Json} {rest : Rest input} (h : value e depth input = .ok (v, rest)) :
    valueOf e depth input = .ok (v, rest.1) := by
  rw [valueOf, h]
  rfl

theorem valueOf_of_error {f : Fault} (h : value e depth input = .error f) :
    valueOf e depth input = .error f := by
  rw [valueOf, h]
  rfl

theorem itemsOf_eq {read : List Json} : itemsOf e depth read input =
    match valueOf e depth input with
    | .error f => .error f
    | .ok (v, rest) =>
      match afterItem e rest with
      | .error f => .error f
      | .ok (.close, after) => .ok ((v :: read).reverse, after)
      | .ok (.next, after) => itemsOf e depth (v :: read) after := by
  rw [itemsOf, items.eq_def]
  split
  · next h => simp only [valueOf_of_error h]; rfl
  · next v rest h =>
    simp only [valueOf_of_ok h]
    split
    · next h => simp only [h]; rfl
    · next h => simp only [h]; rfl
    · next h =>
      simp only [h, itemsOf]
      cases items e depth (v :: read) _ <;> rfl

theorem membersOf_eq {read : List (String × Json)} : membersOf e depth read input =
    match key e input with
    | .error f => .error f
    | .ok (k, rest) =>
      match valueOf e depth rest with
      | .error f => .error f
      | .ok (v, rest) =>
        match afterMember e rest with
        | .error f => .error f
        | .ok (.close, after) => .ok (insert k v read, after)
        | .ok (.next, after) => membersOf e depth (insert k v read) after := by
  rw [membersOf, members.eq_def]
  split
  · next h => simp only [h]; rfl
  · next k rest h =>
    simp only [h]
    split
    · next h => simp only [valueOf_of_error h]; rfl
    · next v rest h =>
      simp only [valueOf_of_ok h]
      split
      · next h => simp only [h]; rfl
      · next h => simp only [h]; rfl
      · next h =>
        simp only [h, membersOf]
        cases members e depth (insert k v read) _ <;> rfl

theorem length_valueOf_lt {v : Json} (h : valueOf e depth input = .ok (v, out)) :
    out.length < input.length := by
  cases read : value e depth input with
  | error f =>
    rw [valueOf_of_error read] at h
    cases h
  | ok p =>
    rw [valueOf_of_ok read] at h
    cases h
    exact p.2.2

/-- A front of inputs that is one value. -/
structure Fronts (depth : Nat) (first : UInt8) (front : Bytes) (v : Json) : Prop where
  /-- Behind blanks it starts with this byte, -/
  starts : ∀ rest, ∃ tail, skipBlanks (front ++ rest) = first :: tail
  /-- which is no bracket that closes an array. -/
  opens : first ≠ 0x5D
  /-- The value is read from it, whatever stands behind it and ends it. -/
  value : ∀ e rest, Behind first e rest → valueOf e depth (front ++ rest) = .ok (v, rest)

theorem Fronts.begun {first : UInt8} {front : Bytes} {v : Json} (h : Fronts depth first front v)
    (rest : Bytes) : Begun (front ++ rest) := by
  obtain ⟨tail, starts⟩ := h.starts rest
  exact ⟨first, tail, starts, h.opens⟩

/-- Every value in at most `n` bytes is a front of them. -/
def Fronted (n : Nat) : Prop :=
  ∀ ⦃e depth input out v⦄, input.length ≤ n → valueOf e depth input = .ok (v, out) →
    ∃ first front, input = front ++ out ∧ Fronts depth first front v

/-- Items are read from a front of the input if each value of it is. -/
theorem exists_front_items {n : Nat} {read vs : List Json} (values : Fronted n)
    (short : input.length ≤ n) (h : itemsOf e depth read input = .ok (vs, out)) :
    ∃ front, input = front ++ out ∧ (∀ rest, Begun (front ++ rest)) ∧
      ∀ e rest, itemsOf e depth read (front ++ rest) = .ok (vs, rest) := by
  induction size : input.length using Nat.strong_induction_on generalizing input read with
  | _ size ih =>
    rw [itemsOf_eq] at h
    split at h
    · cases h
    next v behind item =>
    have shorter := length_valueOf_lt item
    obtain ⟨first, front, rfl, fronts⟩ := values short item
    have here : ∀ {e s rest}, afterItem e rest = .ok s →
        valueOf e depth (front ++ rest) = .ok (v, rest) := fun separated =>
      fronts.value _ _ (.inr (parted_of_afterItem separated))
    split at h
    · cases h
    · next after close =>
      cases h
      obtain ⟨back, rfl, all⟩ := reads_afterItem close
      refine ⟨front ++ back, (List.append_assoc ..).symm, fun rest => ?_, fun e rest => ?_⟩
      · rw [List.append_assoc]
        exact fronts.begun _
      · have separated := all e rest (by rintro ⟨⟩)
        rw [List.append_assoc, itemsOf_eq, here separated]
        simp only [separated]
    · next after comma =>
      have less := length_afterItem_lt comma
      obtain ⟨back, rfl, all⟩ := reads_afterItem comma
      obtain ⟨last, rfl, begun, later⟩ := ih _ (size ▸ less.trans shorter)
        ((less.trans shorter).le.trans short) h rfl
      refine ⟨front ++ (back ++ last), by simp, fun rest => ?_, fun e rest => ?_⟩
      · rw [List.append_assoc]
        exact fronts.begun _
      · have separated := all e (last ++ rest) fun _ => begun rest
        rw [List.append_assoc, List.append_assoc, itemsOf_eq, here separated]
        simp only [separated, later]

/-- So are members. -/
theorem reads_membersOf {n : Nat} {read ms : List (String × Json)} (values : Fronted n)
    (short : input.length ≤ n) (h : membersOf e depth read input = .ok (ms, out)) :
    Reads (membersOf · depth read ·) Anything input ms out := by
  induction size : input.length using Nat.strong_induction_on generalizing input read with
  | _ size ih =>
    rw [membersOf_eq] at h
    split at h
    · cases h
    next k rest name =>
    have lessKey := length_key_lt name
    obtain ⟨start, rfl, names⟩ := reads_key name
    split at h
    · cases h
    next v behind member =>
    have lessValue := length_valueOf_lt member
    obtain ⟨first, front, rfl, fronts⟩ := values (lessKey.le.trans short) member
    have here : ∀ {e s rest}, afterMember e rest = .ok s →
        valueOf e depth (front ++ rest) = .ok (v, rest) := fun separated =>
      fronts.value _ _ (.inr (parted_of_afterMember separated))
    split at h
    · cases h
    · next after close =>
      cases h
      obtain ⟨back, rfl, all⟩ := reads_afterMember close
      refine ⟨start ++ (front ++ back), by simp, fun e rest _ => ?_⟩
      have separated := all e rest trivial
      show membersOf e depth read (start ++ (front ++ back) ++ rest) = _
      rw [List.append_assoc, List.append_assoc, membersOf_eq, names e _ trivial]
      simp only [here separated, separated]
    · next after comma =>
      have less := length_afterMember_lt comma
      obtain ⟨back, rfl, all⟩ := reads_afterMember comma
      have shorter := (less.trans lessValue).trans lessKey
      obtain ⟨last, rfl, later⟩ := ih _ (size ▸ shorter) (shorter.le.trans short) h rfl
      refine ⟨start ++ (front ++ (back ++ last)), by simp, fun e rest _ => ?_⟩
      have separated := all e (last ++ rest) trivial
      show membersOf e depth read (start ++ (front ++ (back ++ last)) ++ rest) = _
      rw [List.append_assoc, List.append_assoc, List.append_assoc, membersOf_eq, names e _ trivial]
      simp only [here separated, separated]
      exact later e rest trivial

theorem reads_arrayOf {v : Json} (values : Fronted input.length)
    (h : arrayOf e depth input = .ok (v, out)) : Reads (arrayOf · depth ·) Anything input v out := by
  cases depth with
  | zero => cases h
  | succ depth =>
    rw [arrayOf] at h
    split at h
    · cases h
    next c after found =>
    split at h
    case isTrue close =>
      cases h
      obtain ⟨front, rfl, all⟩ := exists_first found
      exact ⟨front, rfl, fun e rest _ => by simp only [arrayOf, all, if_pos close]⟩
    case isFalse =>
      cases inner : itemsOf e depth [] input with
      | error f =>
        rw [inner] at h
        cases h
      | ok p =>
        rw [inner] at h
        cases h
        obtain ⟨front, split, begun, all⟩ := exists_front_items values le_rfl inner
        refine ⟨front, split, fun e rest _ => ?_⟩
        obtain ⟨d, tail, second, opens⟩ := begun rest
        simp only [arrayOf, second, if_neg opens, all]
        rfl

theorem reads_objectOf {v : Json} (values : Fronted input.length)
    (h : objectOf e depth input = .ok (v, out)) :
    Reads (objectOf · depth ·) Anything input v out := by
  cases depth with
  | zero => cases h
  | succ depth =>
    rw [objectOf] at h
    split at h
    · cases h
    · next after close =>
      cases h
      obtain ⟨front, rfl, all⟩ := reads_firstMember close
      exact ⟨front, rfl, fun e rest _ => by simp only [objectOf, all e rest trivial]⟩
    · next after quote =>
      cases inner : membersOf e depth [] after with
      | error f =>
        rw [inner] at h
        cases h
      | ok p =>
        rw [inner] at h
        cases h
        have short := (length_firstMember_lt quote).le
        obtain ⟨front, rfl, all⟩ := reads_firstMember quote
        obtain ⟨back, rfl, later⟩ := reads_membersOf values short inner
        refine ⟨front ++ back, (List.append_assoc ..).symm, fun e rest _ => ?_⟩
        have body : membersOf e depth [] (back ++ rest) = .ok (p.1, rest) := later e rest trivial
        simp only [List.append_assoc, objectOf, all e _ trivial, body]
        rfl

/-- A value is read behind its first byte, which alone says what may stand behind it. -/
theorem reads_bodyOf {first : UInt8} {v : Json} (values : Fronted input.length)
    (h : bodyOf e depth first input = .ok (v, out)) :
    Reads (bodyOf · depth first ·) (Behind first) input v out := by
  unfold bodyOf at h
  split at h
  case isTrue bracket =>
    exact (reads_arrayOf values h).congr (fun _ _ => if_pos bracket) fun _ _ _ => trivial
  case isFalse noBracket =>
    split at h
    case isTrue brace =>
      refine (reads_objectOf values h).congr (fun _ _ => ?_) fun _ _ _ => trivial
      exact (if_neg noBracket).trans (if_pos brace)
    case isFalse noBrace =>
      refine (reads_scalar h).congr (fun _ _ => ?_) fun _ _ behind => behind
      exact (if_neg noBracket).trans (if_neg noBrace)

/-- **A value is read from a front of its input, and from any input with that front.** -/
theorem exists_front {v : Json} (h : valueOf e depth input = .ok (v, out)) :
    ∃ first front, input = front ++ out ∧ Fronts depth first front v := by
  induction size : input.length using Nat.strong_induction_on generalizing e depth input out v with
  | _ size ih =>
    rw [valueOf_eq] at h
    split at h
    · cases h
    next first rest found =>
    -- What is read behind the first byte is shorter, and so are the values in it.
    have less := length_of_skipBlanks_eq found
    have values : Fronted rest.length := fun _ _ _ _ _ short item =>
      ih _ (size ▸ short.trans_lt less) item rfl
    have opens : first ≠ 0x5D := by
      rintro rfl
      cases h
    obtain ⟨front, rfl, all⟩ := exists_first found
    obtain ⟨back, rfl, later⟩ := reads_bodyOf values h
    refine ⟨first, front ++ back, (List.append_assoc ..).symm, fun rest => ⟨back ++ rest, ?_⟩, opens,
      fun e rest behind => ?_⟩
    · rw [List.append_assoc, all]
    · rw [List.append_assoc, valueOf_eq, all]
      exact later e rest behind

/-! ## Streams -/

namespace Stream

/-- What the next call of a stream comes to, and the stream behind it. A value of which the end does not
show has to be followed by a delimiter, and is lost otherwise. -/
inductive Gives (s : Stream) : Item → Stream → Prop where
  | past (failed : s.failed = true) : Gives s .done s
  | ended (working : s.failed = false) (blank : skipBlanks s.rest = [])
      (closed : s.ending = .closed) : Gives s .done { s with rest := [] }
  | cutOff {reason : String} (working : s.failed = false) (blank : skipBlanks s.rest = [])
      (broken : s.ending = .broken reason) :
    Gives s (.fault (.unreadable reason)) { s with rest := [], failed := true }
  | malformed {first : UInt8} {tail : Bytes} {f : Fault} (working : s.failed = false)
      (found : skipBlanks s.rest = first :: tail)
      (bad : valueOf s.ending depthLimit (first :: tail) = .error f) :
    Gives s (.fault f) { s with failed := true }
  | whole {first : UInt8} {tail back : Bytes} {v : Json} (working : s.failed = false)
      (found : skipBlanks s.rest = first :: tail)
      (read : valueOf s.ending depthLimit (first :: tail) = .ok (v, back))
      (behind : Behind first s.ending back) : Gives s (.value v) { s with rest := back }
  | lost {first : UInt8} {tail back : Bytes} {v : Json} {f : Fault} (working : s.failed = false)
      (found : skipBlanks s.rest = first :: tail)
      (read : valueOf s.ending depthLimit (first :: tail) = .ok (v, back))
      (lasting : endsItself first = false) (behind : afterValue s.ending back = .error f) :
    Gives s (.fault f) { s with rest := back }

theorem gives_next (s : Stream) : s.Gives s.next.1 s.next.2 := by
  unfold next
  split
  · next failed => exact .past failed
  next working =>
  rw [Bool.not_eq_true] at working
  split
  · next blank =>
    split
    · next closed => exact .ended working blank closed
    · next broken => exact .cutOff working blank broken
  next first tail found =>
  split
  · next bad => exact .malformed working found (valueOf_of_error bad)
  next v after read =>
  split
  · next ends => exact .whole working found (valueOf_of_ok read) (.inl ends)
  next lasting =>
  rw [Bool.not_eq_true] at lasting
  split
  · next parted => exact .whole working found (valueOf_of_ok read) (.inr parted)
  · next behind => exact .lost working found (valueOf_of_ok read) lasting behind

variable {s : Stream}

theorem ending_next (s : Stream) : s.next.2.ending = s.ending := by
  have gives := s.gives_next
  generalize s.next.1 = item, s.next.2 = t at gives
  cases gives <;> rfl

/-- A stream that has ended stays at its end. -/
theorem next_of_over (finished : s.next.1 = .done) : s.next.2.next.1 = .done := by
  have gives := s.gives_next
  rw [finished] at gives
  generalize s.next.2 = t at gives
  cases gives with
  | past failed => exact finished
  | ended working blank closed => simp [next, working, closed, skipBlanks]

/-- A value that the stream gives was read behind the blanks, and what stands behind it ends it. -/
theorem valueOf_of_next {s s' : Stream} {v : Json} (h : s.next = (.value v, s')) :
    s.failed = false ∧ s' = { s with rest := s'.rest } ∧ ∃ first tail,
      skipBlanks s.rest = first :: tail ∧
        valueOf s.ending depthLimit (first :: tail) = .ok (v, s'.rest) ∧
          Behind first s.ending s'.rest := by
  have gives := s.gives_next
  rw [h] at gives
  cases gives with
  | whole working found read behind => exact ⟨working, rfl, _, _, found, read, behind⟩

theorem next_of_valueOf {rest tail : Bytes} {first : UInt8} {v : Json}
    (found : skipBlanks rest = first :: tail)
    (read : valueOf e depthLimit (first :: tail) = .ok (v, out)) (behind : Behind first e out) :
    next { rest := rest, ending := e } = (.value v, { rest := out, ending := e }) := by
  cases here : value e depthLimit (first :: tail) with
  | error f =>
    rw [valueOf_of_error here] at read
    cases read
  | ok p =>
    obtain ⟨w, after⟩ := p
    rw [valueOf_of_ok here] at read
    cases read
    simp only [next, found, here, Bool.false_eq_true, if_false]
    split
    · rfl
    · next lasting =>
      have parted : afterValue e after.1 = .ok () := behind.resolve_left lasting
      simp only [parted]

/-- **A value that the stream gives is a front of its bytes**, and any stream with that front gives
it. -/
theorem exists_front_next {s s' : Stream} {v : Json} (h : s.next = (.value v, s')) :
    ∃ first front, s.rest = front ++ s'.rest ∧ Behind first s.ending s'.rest ∧
      ∀ e rest, Behind first e rest →
        next { rest := front ++ rest, ending := e } = (.value v, { rest := rest, ending := e }) := by
  obtain ⟨-, -, first, tail, found, read, behind⟩ := valueOf_of_next h
  obtain ⟨start, split, all⟩ := exists_first found
  obtain ⟨other, front, values, fronts⟩ := exists_front read
  -- The value starts right behind the blanks.
  have again : skipBlanks (first :: tail) = first :: tail := by
    rw [← found]
    exact List.dropWhile_idempotent isBlank _
  obtain ⟨_, starts⟩ := fronts.starts s'.rest
  obtain rfl : first = other := by
    rw [← values, again] at starts
    exact (List.cons.inj starts).1
  cases front with
  | nil =>
    have less := length_valueOf_lt read
    rw [values] at less
    exact absurd less (Nat.lt_irrefl _)
  | cons b front =>
    obtain ⟨rfl, behindFirst⟩ : first = b ∧ tail = front ++ s'.rest := List.cons.inj values
    refine ⟨first, start ++ front, ?_, behind, fun e rest ends => ?_⟩
    · rw [split, behindFirst, List.append_assoc]
    · rw [List.append_assoc]
      exact next_of_valueOf (all _) (fronts.value e rest ends) ends

end Stream

end Json

end BatchPool
