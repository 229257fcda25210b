import BatchPool.Json.Parser

/-!
# Passing over a value

The value of an unknown key is passed over without being built. The grammar is a little wider than
that of `Json.value`: nesting is not limited, numbers may be out of range, halves of characters may
stand alone and text need not be UTF-8. Some faults of punctuation are told differently, too.

* `Json.skipText`, `Json.skipNumber`: texts and numbers.
* `Json.skip`: any value.
-/

namespace BatchPool

namespace Json

/-! ## Scalars -/

/-- Passes over an escape after its backslash. -/
def skipEscape : Bytes → Except Fault Bytes
  | [] => .error (.ended .text)
  | b :: input =>
    if (escapedLetter? b).isSome then .ok input
    else if b = 0x75 then (hexFour .closed input).map (·.2)
    else .error (.malformed .invalidEscape)

theorem length_skipEscape_lt {input out : Bytes} (h : skipEscape input = .ok out) :
    out.length < input.length := by
  cases input with
  | nil => simp [skipEscape] at h
  | cons b input =>
    simp only [skipEscape] at h
    split at h
    · simp at h; simp [h]
    · split at h
      · cases hx : hexFour .closed input with
        | error f => simp [hx, Except.map] at h
        | ok p =>
          have := length_hexFour_lt hx
          simp [hx, Except.map] at h
          simp [← h]
          omega
      · simp at h

/-- Passes over a text after its opening quote. -/
def skipText (input : Bytes) : Except Fault Bytes :=
  match input with
  | [] => .error (.ended .text)
  | b :: rest =>
    if b = 0x22 then .ok rest
    else if b = 0x5C then
      match _h : skipEscape rest with
      | .ok after => skipText after
      | .error f => .error f
    else if b < 0x20 then .error (.malformed .controlCharacter)
    else skipText rest
termination_by input.length
decreasing_by
  · have := length_skipEscape_lt _h
    simp
    omega
  · simp

/-- Passes over an exponent after its `e`. -/
def skipExponent (input : Bytes) : Except Fault Bytes :=
  match (exponentSign input).2.takeWhile isDigit with
  | [] => .error (.malformed .invalidNumber)
  | _ :: _ => .ok ((exponentSign input).2.dropWhile isDigit)

/-- Passes over a fraction after its point. -/
def skipFraction (input : Bytes) : Except Fault Bytes :=
  match input.takeWhile isDigit with
  | [] => .error (.malformed .invalidNumber)
  | _ :: _ =>
    match input.dropWhile isDigit with
    | [] => .ok []
    | b :: rest => if b = 0x65 ∨ b = 0x45 then skipExponent rest else .ok (b :: rest)

/-- Passes over a number after its sign. -/
def skipNumber (input : Bytes) : Except Fault Bytes :=
  match input.takeWhile isDigit with
  | [] => .error (.malformed .invalidNumber)
  | d :: ds =>
    if d = 0x30 ∧ ds ≠ [] then .error (.malformed .invalidNumber)
    else
      match input.dropWhile isDigit with
      | [] => .ok []
      | b :: after =>
        if b = 0x2E then skipFraction after
        else if b = 0x65 ∨ b = 0x45 then skipExponent after
        else .ok (b :: after)

/-- Passes over a value that is neither array nor object, of which `first` is the first byte. -/
def skipScalar (first : UInt8) (input : Bytes) : Except Fault Bytes :=
  if first = 0x6E then literal .closed [0x75, 0x6C, 0x6C] input
  else if first = 0x74 then literal .closed [0x72, 0x75, 0x65] input
  else if first = 0x66 then literal .closed [0x61, 0x6C, 0x73, 0x65] input
  else if first = 0x2D then skipNumber input
  else if isDigit first then skipNumber (first :: input)
  else if first = 0x22 then skipText input
  else .error (.malformed .expectedValue)

/-! ## Skipping shortens the input -/

theorem length_skipText_lt {input out : Bytes} (h : skipText input = .ok out) :
    out.length < input.length := by
  fun_induction skipText input with
  | case1 => simp at h
  | case2 rest => simp at h; simp [h]
  | case3 rest after he hb ih =>
    have h1 := ih h
    have h2 := length_skipEscape_lt he
    simp
    omega
  | case4 => simp at h
  | case5 => simp at h
  | case6 b rest hb hb' hb'' ih =>
    have := ih h
    simp
    omega

theorem length_skipExponent_le {input out : Bytes} (h : skipExponent input = .ok out) :
    out.length ≤ input.length := by
  unfold skipExponent at h
  split at h
  · simp at h
  · simp at h
    have h1 := length_exponentSign_le input
    have h2 := length_dropWhile_le isDigit (exponentSign input).2
    rw [← h]
    omega

theorem length_skipFraction_le {input out : Bytes} (h : skipFraction input = .ok out) :
    out.length ≤ input.length := by
  have hd := length_dropWhile_le isDigit input
  unfold skipFraction at h
  split at h
  · simp at h
  · split at h
    · simp at h; simp [h]
    · next b rest hrest =>
      rw [hrest] at hd
      simp at hd
      split at h
      · have := length_skipExponent_le h
        omega
      · simp at h
        rw [← h]
        simpa using hd

theorem length_skipNumber_lt {input out : Bytes} (h : skipNumber input = .ok out) :
    out.length < input.length := by
  have happ := congrArg List.length (List.takeWhile_append_dropWhile (p := isDigit) (l := input))
  simp only [List.length_append] at happ
  unfold skipNumber at h
  split at h
  · simp at h
  · next d ds ht =>
    rw [ht, List.length_cons] at happ
    split at h
    · simp at h
    · split at h
      · simp at h
        rw [h, List.length_nil]
        omega
      · next b after hr =>
        rw [hr, List.length_cons] at happ
        split at h
        · have := length_skipFraction_le h
          omega
        · split at h
          · have := length_skipExponent_le h
            omega
          · simp at h
            rw [← h, List.length_cons]
            omega

theorem length_skipScalar_le {first : UInt8} {input out : Bytes}
    (h : skipScalar first input = .ok out) : out.length ≤ input.length := by
  unfold skipScalar at h
  split at h
  · exact length_literal_le h
  split at h
  · exact length_literal_le h
  split at h
  · exact length_literal_le h
  split at h
  · exact Nat.le_of_lt (length_skipNumber_lt h)
  split at h
  · have := length_skipNumber_lt h
    simp at this
    omega
  split at h
  · exact Nat.le_of_lt (length_skipText_lt h)
  · simp at h

/-! ## Values -/

/-- Passes over the colon behind a key and the key itself, from its opening quote on. -/
def skipKey (input : Bytes) : Except Fault (Rest input) :=
  match _h : skipBlanks input with
  | [] => .error (.ended .object)
  | b :: rest =>
    if b = 0x22 then
      match _ht : skipText rest with
      | .error f => .error f
      | .ok after =>
        match _hc : colon .closed after with
        | .error f => .error f
        | .ok out =>
          .ok ⟨out, Nat.lt_trans (length_colon_lt _hc)
            (Nat.lt_trans (length_skipText_lt _ht) (length_of_skipBlanks_eq _h))⟩
    else .error (.malformed .keyNotText)

mutual
/-- Passes over a value. -/
def skip (input : Bytes) : Except Fault (Rest input) :=
  match _h : skipBlanks input with
  | [] => .error (.ended .value)
  | b :: rest =>
    have hb := length_of_skipBlanks_eq _h
    if b = 0x5B then
      match _hi : skipBlanks rest with
      | [] => .error (.ended .list)
      | c :: after =>
        have hc := length_of_skipBlanks_eq _hi
        if c = 0x5D then .ok ⟨after, Nat.lt_trans hc hb⟩
        else (skipItems rest).map fun out => ⟨out.1, Nat.lt_trans out.2 hb⟩
    else if b = 0x7B then
      match _hm : skipBlanks rest with
      | [] => .error (.ended .object)
      | c :: after =>
        have hc := length_of_skipBlanks_eq _hm
        if c = 0x7D then .ok ⟨after, Nat.lt_trans hc hb⟩
        else (skipMembers rest).map fun out => ⟨out.1, Nat.lt_trans out.2 hb⟩
    else
      match _hs : skipScalar b rest with
      | .error f => .error f
      | .ok after => .ok ⟨after, Nat.lt_of_le_of_lt (length_skipScalar_le _hs) hb⟩
termination_by 2 * input.length

/-- Passes over the items of an array from the next one on. -/
def skipItems (input : Bytes) : Except Fault (Rest input) :=
  match skip input with
  | .error f => .error f
  | .ok rest =>
    have hr := rest.2
    match _h : skipBlanks rest.1 with
    | [] => .error (.ended .list)
    | b :: after =>
      have ha := length_of_skipBlanks_eq _h
      if b = 0x5D then .ok ⟨after, Nat.lt_trans ha hr⟩
      else if b = 0x2C then
        (skipItems after).map fun out => ⟨out.1, Nat.lt_trans (Nat.lt_trans out.2 ha) hr⟩
      else .error (.malformed .expectedItemEnd)
termination_by 2 * input.length + 1

/-- Passes over the members of an object from the next one on. -/
def skipMembers (input : Bytes) : Except Fault (Rest input) :=
  match skipKey input with
  | .error f => .error f
  | .ok keyed =>
    have hk := keyed.2
    match skip keyed.1 with
    | .error f => .error f
    | .ok rest =>
      have hr := Nat.lt_trans rest.2 hk
      match _h : skipBlanks rest.1 with
      | [] => .error (.ended .object)
      | b :: after =>
        have ha := length_of_skipBlanks_eq _h
        if b = 0x7D then .ok ⟨after, Nat.lt_trans ha hr⟩
        else if b = 0x2C then
          (skipMembers after).map fun out => ⟨out.1, Nat.lt_trans (Nat.lt_trans out.2 ha) hr⟩
        else .error (.malformed .expectedMemberEnd)
termination_by 2 * input.length
end

end Json

end BatchPool
