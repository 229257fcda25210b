import BatchPool.Json.Number
import BatchPool.Json.Quoted

/-!
# Reading a value

A reader takes the bytes still to be read and returns a value with the bytes behind it, or the first
fault from the left.

* `Json.Rest`: a shorter remainder of an input. That every reader returns one is why reading ends.
* `Json.scalar`: null, a truth value, a number or a text.
* `Json.value`: any value; `depth` says how many more arrays and objects may be opened inside.
* `Json.parse`: a whole document.
-/

namespace BatchPool

namespace Json

/-- What is left of an input after something was read from its front. -/
abbrev Rest (input : Bytes) := { rest : Bytes // rest.length < input.length }

/-- How many arrays and objects may be nested. -/
def depthLimit : Nat := 127

/-! ## Scalars -/

/-- Reads a value that is neither array nor object, of which `first` is the first byte. -/
def scalar (e : Ending) (first : UInt8) (input : Bytes) : Except Fault (Json × Bytes) :=
  if first = 0x6E then (literal e [0x75, 0x6C, 0x6C] input).map (Json.null, ·)
  else if first = 0x74 then (literal e [0x72, 0x75, 0x65] input).map (Json.bool true, ·)
  else if first = 0x66 then (literal e [0x61, 0x6C, 0x73, 0x65] input).map (Json.bool false, ·)
  else if first = 0x2D then number e true input
  else if isDigit first then number e false (first :: input)
  else if first = 0x22 then (text e input).map fun p => (Json.str p.1, p.2)
  else .error (.malformed .expectedValue)

theorem length_scalar_le {e : Ending} {first : UInt8} {input out : Bytes} {v : Json}
    (h : scalar e first input = .ok (v, out)) : out.length ≤ input.length := by
  have lit : ∀ {w : Json} {rest : Bytes},
      (literal e rest input).map (w, ·) = .ok (v, out) → out.length ≤ input.length := by
    intro w rest h
    cases hl : literal e rest input with
    | error f => simp [hl, Except.map] at h
    | ok r =>
      simp [hl, Except.map] at h
      rw [← h.2]
      exact length_literal_le hl
  unfold scalar at h
  split at h
  · exact lit h
  split at h
  · exact lit h
  split at h
  · exact lit h
  split at h
  · exact Nat.le_of_lt (length_number_lt h)
  split at h
  · have := length_number_lt h
    simp at this
    omega
  split at h
  · cases ht : text e input with
    | error f => simp [ht, Except.map] at h
    | ok p =>
      simp [ht, Except.map] at h
      rw [← h.2]
      exact Nat.le_of_lt (length_text_lt ht)
  · simp at h

/-! ## Punctuation -/

/-- What may stand behind an item of an array or a member of an object. -/
inductive Separator where
  | next
  | close
  deriving Repr, DecidableEq

/-- Reads what stands behind an item: a comma, which another item has to follow, or the bracket. -/
def afterItem (e : Ending) (input : Bytes) : Except Fault (Separator × Bytes) :=
  match skipBlanks input with
  | [] => .error (endFault e .list)
  | b :: rest =>
    if b = 0x5D then .ok (.close, rest)
    else if b = 0x2C then
      match skipBlanks rest with
      | c :: _ => if c = 0x5D then .error (.malformed .trailingComma) else .ok (.next, rest)
      | [] => .error (endFault e .value)
    else .error (.malformed .expectedItemEnd)

/-- Reads what stands behind a member: a comma and the opening quote of the next key, or the
brace. -/
def afterMember (e : Ending) (input : Bytes) : Except Fault (Separator × Bytes) :=
  match skipBlanks input with
  | [] => .error (endFault e .object)
  | b :: rest =>
    if b = 0x7D then .ok (.close, rest)
    else if b = 0x2C then
      match skipBlanks rest with
      | [] => .error (endFault e .value)
      | c :: rest =>
        if c = 0x22 then .ok (.next, rest)
        else if c = 0x7D then .error (.malformed .trailingComma)
        else .error (.malformed .keyNotText)
    else .error (.malformed .expectedMemberEnd)

/-- Reads what stands behind an opening brace: the opening quote of a key, or the brace. -/
def firstMember (e : Ending) (input : Bytes) : Except Fault (Separator × Bytes) :=
  match skipBlanks input with
  | [] => .error (endFault e .object)
  | b :: rest =>
    if b = 0x7D then .ok (.close, rest)
    else if b = 0x22 then .ok (.next, rest)
    else .error (.malformed .keyNotText)

/-- Reads the colon behind a key. -/
def colon (e : Ending) (input : Bytes) : Except Fault Bytes :=
  match skipBlanks input with
  | [] => .error (endFault e .object)
  | b :: rest => if b = 0x3A then .ok rest else .error (.malformed .expectedColon)

/-- Reads a key after its opening quote, and the colon behind it. -/
def key (e : Ending) (input : Bytes) : Except Fault (String × Bytes) :=
  match text e input with
  | .error f => .error f
  | .ok (k, rest) => (colon e rest).map (k, ·)

theorem length_afterItem_lt {e : Ending} {input out : Bytes} {s : Separator}
    (h : afterItem e input = .ok (s, out)) : out.length < input.length := by
  unfold afterItem at h
  split at h
  · simp at h
  · next b rest hb =>
    have := length_of_skipBlanks_eq hb
    split at h
    · simp at h; rw [← h.2]; exact this
    · split at h
      · split at h
        · split at h
          · simp at h
          · simp at h; rw [← h.2]; exact this
        · simp at h
      · simp at h

theorem length_afterMember_lt {e : Ending} {input out : Bytes} {s : Separator}
    (h : afterMember e input = .ok (s, out)) : out.length < input.length := by
  unfold afterMember at h
  split at h
  · simp at h
  · next b rest hb =>
    have h1 := length_of_skipBlanks_eq hb
    split at h
    · simp at h; rw [← h.2]; exact h1
    · split at h
      · split at h
        · simp at h
        · next c rest' hc =>
          have h2 := length_of_skipBlanks_eq hc
          split at h
          · simp at h; rw [← h.2]; omega
          · split at h <;> simp at h
      · simp at h

theorem length_firstMember_lt {e : Ending} {input out : Bytes} {s : Separator}
    (h : firstMember e input = .ok (s, out)) : out.length < input.length := by
  unfold firstMember at h
  split at h
  · simp at h
  · next b rest hb =>
    have h1 := length_of_skipBlanks_eq hb
    split at h
    · simp at h; rw [← h.2]; exact h1
    · split at h
      · simp at h; rw [← h.2]; exact h1
      · simp at h

theorem length_colon_lt {e : Ending} {input out : Bytes} (h : colon e input = .ok out) :
    out.length < input.length := by
  unfold colon at h
  split at h
  · simp at h
  · next b rest hb =>
    have h1 := length_of_skipBlanks_eq hb
    split at h
    · simp at h; rw [← h]; exact h1
    · simp at h

theorem length_key_lt {e : Ending} {input out : Bytes} {k : String}
    (h : key e input = .ok (k, out)) : out.length < input.length := by
  unfold key at h
  split at h
  · simp at h
  · next k' rest hk =>
    have h1 := length_text_lt hk
    cases hc : colon e rest with
    | error f => simp [hc, Except.map] at h
    | ok r =>
      have h2 := length_colon_lt hc
      simp [hc, Except.map] at h
      rw [← h.2]
      omega

/-! ## Values -/

mutual
/-- Reads a value. -/
def value (e : Ending) (depth : Nat) (input : Bytes) : Except Fault (Json × Rest input) :=
  match _h : skipBlanks input with
  | [] => .error (endFault e .value)
  | b :: rest =>
    have hb := length_of_skipBlanks_eq _h
    if b = 0x5B then
      match depth with
      | 0 => .error (.malformed .tooDeep)
      | depth + 1 =>
        match _hi : skipBlanks rest with
        | [] => .error (endFault e .list)
        | c :: after =>
          have hc := length_of_skipBlanks_eq _hi
          if c = 0x5D then .ok (.arr [], ⟨after, by omega⟩)
          else
            match items e depth [] rest with
            | .error f => .error f
            | .ok (vs, out) => .ok (.arr vs, ⟨out.1, Nat.lt_trans out.2 hb⟩)
    else if b = 0x7B then
      match depth with
      | 0 => .error (.malformed .tooDeep)
      | depth + 1 =>
        match _hm : firstMember e rest with
        | .error f => .error f
        | .ok (.close, after) =>
          .ok (.obj [], ⟨after, Nat.lt_trans (length_firstMember_lt _hm) hb⟩)
        | .ok (.next, after) =>
          have hn := length_firstMember_lt _hm
          match members e depth [] after with
          | .error f => .error f
          | .ok (ms, out) =>
            .ok (.obj ms, ⟨out.1, Nat.lt_trans (Nat.lt_trans out.2 hn) hb⟩)
    else
      match _hs : scalar e b rest with
      | .error f => .error f
      | .ok (v, after) => .ok (v, ⟨after, Nat.lt_of_le_of_lt (length_scalar_le _hs) hb⟩)
termination_by 2 * input.length

/-- Reads the items of an array from the next one on; `read` holds those before, the last one
first. -/
def items (e : Ending) (depth : Nat) (read : List Json) (input : Bytes) :
    Except Fault (List Json × Rest input) :=
  match value e depth input with
  | .error f => .error f
  | .ok (v, rest) =>
    have hr := rest.2
    match _h : afterItem e rest.1 with
    | .error f => .error f
    | .ok (.close, after) =>
      .ok ((v :: read).reverse, ⟨after, Nat.lt_trans (length_afterItem_lt _h) hr⟩)
    | .ok (.next, after) =>
      have ha := length_afterItem_lt _h
      match items e depth (v :: read) after with
      | .error f => .error f
      | .ok (vs, out) => .ok (vs, ⟨out.1, Nat.lt_trans (Nat.lt_trans out.2 ha) hr⟩)
termination_by 2 * input.length + 1

/-- Reads the members of an object from the next key on, whose quote is open; `read` holds those
before. -/
def members (e : Ending) (depth : Nat) (read : List (String × Json)) (input : Bytes) :
    Except Fault (List (String × Json) × Rest input) :=
  match _hk : key e input with
  | .error f => .error f
  | .ok (k, rest) =>
    have hk := length_key_lt _hk
    match value e depth rest with
    | .error f => .error f
    | .ok (v, rest') =>
      have hr := Nat.lt_trans rest'.2 hk
      match _h : afterMember e rest'.1 with
      | .error f => .error f
      | .ok (.close, after) =>
        .ok (insert k v read, ⟨after, Nat.lt_trans (length_afterMember_lt _h) hr⟩)
      | .ok (.next, after) =>
        have ha := length_afterMember_lt _h
        match members e depth (insert k v read) after with
        | .error f => .error f
        | .ok (ms, out) => .ok (ms, ⟨out.1, Nat.lt_trans (Nat.lt_trans out.2 ha) hr⟩)
termination_by 2 * input.length
end

/-! ## Documents -/

/-- Only blanks may follow a document. -/
def nothingFollows (input : Bytes) : Except Fault Unit :=
  match skipBlanks input with
  | [] => .ok ()
  | _ :: _ => .error (.malformed .trailingCharacters)

/-- Reads a text that holds one value. -/
def parse (s : String) : Except Fault Json := do
  let (v, rest) ← value .closed depthLimit (bytesOf s)
  nothingFollows rest.1
  return v

end Json

end BatchPool
