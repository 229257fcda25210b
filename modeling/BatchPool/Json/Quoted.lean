import BatchPool.Json.Input

/-!
# Text in quotes

* `Json.hexFour`: four hexadecimal digits. All four bytes are taken before any is looked at.
* `Json.codeUnits`: the character that one escape, or a pair of escapes for the halves of a
  character beyond U+FFFF, stands for.
* `Json.text`: reads a text after its opening quote. Its bytes have to be UTF-8, which is looked at
  when the closing quote was found.
-/

namespace BatchPool

namespace Json

/-- The value of a hexadecimal digit. -/
def hexValue? (b : UInt8) : Option Nat :=
  if 0x30 ≤ b ∧ b ≤ 0x39 then some (b.toNat - 0x30)
  else if 0x41 ≤ b ∧ b ≤ 0x46 then some (b.toNat - 0x41 + 10)
  else if 0x61 ≤ b ∧ b ≤ 0x66 then some (b.toNat - 0x61 + 10)
  else none

/-- The number that four hexadecimal digits stand for. -/
def hexNumber? (a b c d : UInt8) : Option Nat := do
  let a ← hexValue? a
  let b ← hexValue? b
  let c ← hexValue? c
  let d ← hexValue? d
  return ((a * 16 + b) * 16 + c) * 16 + d

/-- Reads four hexadecimal digits. -/
def hexFour (e : Ending) : Bytes → Except Fault (Nat × Bytes)
  | a :: b :: c :: d :: input =>
    match hexNumber? a b c d with
    | some n => .ok (n, input)
    | none => .error (.malformed .invalidEscape)
  | _ => .error (endFault e .text)

/-- The first half of a character beyond U+FFFF. -/
def isLeading (n : Nat) : Bool := 0xD800 ≤ n && n ≤ 0xDBFF

/-- The second half of a character beyond U+FFFF. -/
def isTrailing (n : Nat) : Bool := 0xDC00 ≤ n && n ≤ 0xDFFF

/-- Reads an escape by number after its `u`. A first half needs the escape of a second half right
behind it, and a second half may not come first. -/
def codeUnits (e : Ending) (input : Bytes) : Except Fault (Char × Bytes) :=
  match hexFour e input with
  | .error f => .error f
  | .ok (n, rest) =>
    if isTrailing n then .error (.malformed .loneSurrogate)
    else if isLeading n then
      match rest with
      | [] => .error (endFault e .text)
      | b :: rest =>
        if b = 0x5C then
          match rest with
          | [] => .error (endFault e .text)
          | c :: rest =>
            if c = 0x75 then
              match hexFour e rest with
              | .error f => .error f
              | .ok (m, rest) =>
                if isTrailing m then
                  .ok (Char.ofNat (0x10000 + (n - 0xD800) * 0x400 + (m - 0xDC00)), rest)
                else .error (.malformed .loneSurrogate)
            else .error (.malformed .unfinishedSurrogate)
        else .error (.malformed .unfinishedSurrogate)
    else .ok (Char.ofNat n, rest)

/-- The character that a one-letter escape stands for. -/
def escapedLetter? (b : UInt8) : Option UInt8 :=
  if b = 0x22 ∨ b = 0x5C ∨ b = 0x2F then some b
  else if b = 0x62 then some 0x08
  else if b = 0x66 then some 0x0C
  else if b = 0x6E then some 0x0A
  else if b = 0x72 then some 0x0D
  else if b = 0x74 then some 0x09
  else none

/-- Reads an escape after its backslash. Returns the bytes that it stands for. -/
def escaped (e : Ending) : Bytes → Except Fault (Bytes × Bytes)
  | [] => .error (endFault e .text)
  | b :: input =>
    match escapedLetter? b with
    | some c => .ok ([c], input)
    | none =>
      if b = 0x75 then
        match codeUnits e input with
        | .ok (c, rest) => .ok (String.utf8EncodeChar c, rest)
        | .error f => .error f
      else .error (.malformed .invalidEscape)

/-- The text that bytes spell. -/
def decodeText (bytes : Bytes) : Except Fault String :=
  match String.fromUTF8? ⟨bytes.toArray⟩ with
  | some s => .ok s
  | none => .error (.malformed .invalidCodePoint)

/-! ## Reading shortens the input -/

theorem length_hexFour_lt {e : Ending} {input out : Bytes} {n : Nat}
    (h : hexFour e input = .ok (n, out)) : out.length < input.length := by
  unfold hexFour at h
  split at h
  · split at h
    · simp at h
      simp [← h.2]
      omega
    · simp at h
  · simp at h

theorem length_codeUnits_lt {e : Ending} {input out : Bytes} {c : Char}
    (h : codeUnits e input = .ok (c, out)) : out.length < input.length := by
  unfold codeUnits at h
  split at h
  · simp at h
  · next n rest hn =>
    have h1 := length_hexFour_lt hn
    split at h
    · simp at h
    · split at h
      · split at h
        · simp at h
        · split at h
          · split at h
            · simp at h
            · split at h
              · split at h
                · simp at h
                · next m rest' hm =>
                  have h2 := length_hexFour_lt hm
                  split at h
                  · simp at h h1
                    rw [← h.2]
                    omega
                  · simp at h
              · simp at h
          · simp at h
      · simp at h
        rw [← h.2]
        exact h1

theorem length_escaped_lt {e : Ending} {input bytes out : Bytes}
    (h : escaped e input = .ok (bytes, out)) : out.length < input.length := by
  cases input with
  | nil => simp [escaped] at h
  | cons b input =>
    simp only [escaped] at h
    split at h
    · simp at h
      simp [h.2]
    · split at h
      · split at h
        · next c rest hc =>
          have := length_codeUnits_lt hc
          simp at h ⊢
          rw [← h.2]
          omega
        · simp at h
      · simp at h

/-! ## Whole texts -/

/-- Reads the bytes of a text after its opening quote, up to and without its closing quote; `read`
holds the bytes so far, the last one first. -/
def textBytes (e : Ending) (read : Bytes) (input : Bytes) : Except Fault (Bytes × Bytes) :=
  match input with
  | [] => .error (endFault e .text)
  | b :: rest =>
    if b = 0x22 then .ok (read.reverse, rest)
    else if b = 0x5C then
      match _h : escaped e rest with
      | .ok (bytes, after) => textBytes e (bytes.reverse ++ read) after
      | .error f => .error f
    else if b < 0x20 then .error (.malformed .controlCharacter)
    else textBytes e (b :: read) rest
termination_by input.length
decreasing_by
  · have := length_escaped_lt _h
    simp
    omega
  · simp

/-- Reads a text after its opening quote. -/
def text (e : Ending) (input : Bytes) : Except Fault (String × Bytes) :=
  match textBytes e [] input with
  | .error f => .error f
  | .ok (bytes, rest) =>
    match decodeText bytes with
    | .ok s => .ok (s, rest)
    | .error f => .error f

theorem length_textBytes_lt {e : Ending} {read input bytes out : Bytes}
    (h : textBytes e read input = .ok (bytes, out)) : out.length < input.length := by
  fun_induction textBytes e read input with
  | case1 => simp at h
  | case2 read rest => simp at h; simp [h.2]
  | case3 read rest bytes after he hb ih =>
    have h1 := ih h
    have h2 := length_escaped_lt he
    simp
    omega
  | case4 => simp at h
  | case5 => simp at h
  | case6 read b rest hb hb' hb'' ih =>
    have := ih h
    simp
    omega

theorem length_text_lt {e : Ending} {input out : Bytes} {s : String}
    (h : text e input = .ok (s, out)) : out.length < input.length := by
  unfold text at h
  split at h
  · simp at h
  · next bytes rest hb =>
    have := length_textBytes_lt hb
    split at h
    · simp at h
      rw [← h.2]
      exact this
    · simp at h

end Json

end BatchPool
