import BatchPool.Json.Printer
import BatchPool.Proofs.Json.Numbers

/-!
# Texts and integers as they are written

* `Json.utf8`: the bytes of characters.
* `Json.text_written`: a text is read as it was written, whatever its characters are.
* `Json.number_written`: so is an integer that fits 64 bits.
-/

namespace BatchPool

namespace Json

variable {e : Ending} {rest : Bytes}

/-! ## Bytes of characters -/

/-- The UTF-8 bytes of characters. -/
def utf8 (cs : List Char) : Bytes := cs.flatMap String.utf8EncodeChar

@[simp] theorem utf8_nil : utf8 [] = [] := rfl

@[simp] theorem utf8_append (cs ds : List Char) : utf8 (cs ++ ds) = utf8 cs ++ utf8 ds :=
  List.flatMap_append

theorem utf8_cons (c : Char) (cs : List Char) :
    utf8 (c :: cs) = String.utf8EncodeChar c ++ utf8 cs := rfl

theorem bytesOf_ofList (cs : List Char) : bytesOf (String.ofList cs) = utf8 cs := by
  rw [bytesOf, String.toUTF8_eq_toByteArray, String.toByteArray_ofList, List.utf8Encode,
    List.data_toByteArray]
  rfl

theorem decodeText_utf8 (s : String) : decodeText (utf8 s.toList) = .ok s := by
  have bytes : (⟨(utf8 s.toList).toArray⟩ : ByteArray) = s.toUTF8 := by
    have same : bytesOf s = utf8 s.toList := by rw [← bytesOf_ofList, String.ofList_toList]
    rw [← same, bytesOf, Array.toArray_toList]
  have valid : String.fromUTF8? s.toUTF8 = some s := by
    rw [String.fromUTF8?, String.toUTF8_eq_toByteArray, dif_pos s.isValidUTF8]
    rfl
  rw [decodeText, bytes, valid]

/-! ## Texts -/

/-- A character that needs no escape has bytes that mean nothing else in a text. -/
theorem plain_of_mem {c : Char} {b : UInt8} (control : ¬c.toNat < 0x20) (quote : c.toNat ≠ 0x22)
    (backslash : c.toNat ≠ 0x5C) (h : b ∈ String.utf8EncodeChar c) :
    b ≠ 0x22 ∧ b ≠ 0x5C ∧ ¬b < 0x20 := by
  have byte : ∃ n, b = UInt8.ofNat n ∧ n < 0x100 ∧ (n = c.toNat ∨ 0x80 ≤ n) := by
    simp only [String.utf8EncodeChar, show c.val.toNat = c.toNat from rfl] at h
    split at h
    · exact ⟨_, List.mem_singleton.1 h, by omega, .inl rfl⟩
    -- All bytes of a longer character are at least 0x80.
    · split at h
      · simp only [List.mem_cons, List.not_mem_nil, or_false] at h
        obtain same | same := h
        all_goals exact ⟨_, same, by omega, .inr (by omega)⟩
      · split at h
        · simp only [List.mem_cons, List.not_mem_nil, or_false] at h
          obtain same | same | same := h
          all_goals exact ⟨_, same, by omega, .inr (by omega)⟩
        · simp only [List.mem_cons, List.not_mem_nil, or_false] at h
          obtain same | same | same | same := h
          all_goals exact ⟨_, same, by omega, .inr (by omega)⟩
  obtain ⟨n, rfl, less, own⟩ := byte
  have value : (UInt8.ofNat n).toNat = n := UInt8.toNat_ofNat_of_lt' less
  simp only [ne_eq, ← UInt8.toNat_inj, UInt8.lt_iff_toNat_lt, value]
  refine ⟨?_, ?_, ?_⟩
  all_goals simp; omega

theorem textBytes_plains {read bytes : Bytes}
    (plain : ∀ b ∈ bytes, b ≠ 0x22 ∧ b ≠ 0x5C ∧ ¬b < 0x20) :
    textBytes e read (bytes ++ rest) = textBytes e (bytes.reverse ++ read) rest := by
  induction bytes generalizing read with
  | nil => rfl
  | cons b bytes ih =>
    obtain ⟨⟨quote, backslash, control⟩, others⟩ := List.forall_mem_cons.1 plain
    rw [List.cons_append, textBytes_plain quote backslash control, ih others]
    simp

/-- A control character is written by its number. -/
theorem escaped_number (n : Nat) (control : n < 0x20) :
    escaped e (utf8 ['u', '0', '0', hexDigit (n / 16), hexDigit (n % 16)] ++ rest) =
      .ok (String.utf8EncodeChar (Char.ofNat n), rest) := by
  have digits : ∀ n, n < 0x20 → ∃ a b,
      utf8 ['u', '0', '0', hexDigit (n / 16), hexDigit (n % 16)] = [0x75, 0x30, 0x30, a, b] ∧
        hexNumber? 0x30 0x30 a b = some n := by
    intro n control
    refine ⟨UInt8.ofNat (hexDigit (n / 16)).toNat, UInt8.ofNat (hexDigit (n % 16)).toNat, ?_⟩
    revert n
    decide
  have single : ∀ n, n < 0x20 → isTrailing n = false ∧ isLeading n = false := by decide
  obtain ⟨a, b, bytes, number⟩ := digits n control
  obtain ⟨trailing, leading⟩ := single n control
  have letter : escapedLetter? 0x75 = none := by decide
  rw [bytes]
  simp [escaped, letter, codeUnits, hexFour, number, trailing, leading]

/-- A character in a text is read as it was written. -/
theorem textBytes_written (read : Bytes) (c : Char) :
    textBytes e read (utf8 (escape c) ++ rest) =
      textBytes e ((String.utf8EncodeChar c).reverse ++ read) rest := by
  have letter : ∀ {n : Nat} {d : Char} {b : UInt8}, c.toNat = n → String.utf8EncodeChar d = [b] →
      escapedLetter? b = some (UInt8.ofNat n) → n < 0x80 →
      textBytes e read (utf8 ['\\', d] ++ rest) =
        textBytes e ((String.utf8EncodeChar c).reverse ++ read) rest := by
    intro n d b number bytes found small
    have single : String.utf8EncodeChar c = [UInt8.ofNat n] := by
      have value : c.val.toNat = n := number
      simp only [String.utf8EncodeChar, value]
      exact if_pos (by omega)
    have all : utf8 ['\\', d] = [0x5C, b] := by
      rw [utf8_cons, utf8_cons, bytes]
      rfl
    rw [all, single]
    exact textBytes_escape (by simp [escaped, found])
  unfold escape
  split
  case isTrue quote =>
    obtain rfl : c = '"' := by rw [← Char.ofNat_toNat c, quote]
    exact letter quote rfl (by decide) (by decide)
  split
  case isTrue backslash =>
    obtain rfl : c = '\\' := by rw [← Char.ofNat_toNat c, backslash]
    exact letter backslash rfl (by decide) (by decide)
  split
  case isTrue back => exact letter back (d := 'b') rfl (by decide) (by decide)
  split
  case isTrue tab => exact letter tab (d := 't') rfl (by decide) (by decide)
  split
  case isTrue line => exact letter line (d := 'n') rfl (by decide) (by decide)
  split
  case isTrue feed => exact letter feed (d := 'f') rfl (by decide) (by decide)
  split
  case isTrue carriage => exact letter carriage (d := 'r') rfl (by decide) (by decide)
  split
  case isTrue control =>
    have read : textBytes e read (0x5C :: (utf8 _ ++ rest)) = _ :=
      textBytes_escape (escaped_number c.toNat control)
    rwa [Char.ofNat_toNat] at read
  next quote backslash _ _ _ _ _ control =>
    rw [utf8_cons, utf8_nil, List.append_nil]
    exact textBytes_plains fun b hb => plain_of_mem control quote backslash hb

/-- **A text is read as it was written.** -/
theorem text_written (s : String) :
    text e (utf8 (s.toList.flatMap escape) ++ 0x22 :: rest) = .ok (s, rest) := by
  have body : ∀ (cs : List Char) (read : Bytes),
      textBytes e read (utf8 (cs.flatMap escape) ++ 0x22 :: rest) =
        .ok (read.reverse ++ utf8 cs, rest) := by
    intro cs
    induction cs with
    | nil => exact fun read => by simp [textBytes_quote]
    | cons c cs ih =>
      intro read
      rw [List.flatMap_cons, utf8_append, List.append_assoc, textBytes_written, ih, utf8_cons]
      simp
  rw [text, body, List.reverse_nil, List.nil_append]
  simp only [decodeText_utf8]

/-! ## Integers -/

/-- The byte of a digit. -/
def digitByte (d : Nat) : UInt8 := UInt8.ofNat (0x30 + d)

theorem isDigit_digitByte {d : Nat} (digit : d < 10) : isDigit (digitByte d) = true := by
  revert d
  decide

theorem digitValue_digitByte {d : Nat} (digit : d < 10) : digitValue (digitByte d) = d := by
  revert d
  decide

theorem utf8_digitChar {d : Nat} (digit : d < 10) : utf8 [d.digitChar] = [digitByte d] := by
  revert d
  decide

/-- The bytes of the digits of a natural number. -/
def digitBytes (n : Nat) : Bytes := utf8 (Nat.toDigits 10 n)

theorem digitBytes_of_lt {n : Nat} (digit : n < 10) : digitBytes n = [digitByte n] := by
  rw [digitBytes, Nat.toDigits_of_lt_base digit, utf8_digitChar digit]

/-- The last digit stands behind the others. -/
theorem digitBytes_of_le {n : Nat} (more : 10 ≤ n) :
    digitBytes n = digitBytes (n / 10) ++ [digitByte (n % 10)] := by
  rw [digitBytes, Nat.toDigits_eq_if (by decide), if_neg (by omega), utf8_append,
    utf8_digitChar (Nat.mod_lt n (by decide))]
  rfl

theorem accumulate_append {ds more : Bytes} {m n : Nat} (h : accumulate m ds = (n, [])) :
    accumulate m (ds ++ more) = accumulate n more := by
  induction ds generalizing m with
  | nil =>
    cases h
    rfl
  | cons d ds ih =>
    simp only [accumulate] at h
    split at h
    · next fits => rw [List.cons_append, accumulate, if_pos fits, ih h]
    · cases h

/-- What holds of the digits of a number. -/
structure Digits (n : Nat) (ds : Bytes) : Prop where
  digits : ∀ d ∈ ds, isDigit d = true
  nonempty : ds ≠ []
  /-- Only zero starts with a zero. -/
  leading : ds.head? = some 0x30 → n = 0
  value : n ≤ wordLimit → accumulate 0 ds = (n, [])

/-- One digit more makes ten times the number. -/
theorem Digits.append {n d : Nat} {ds : Bytes} (h : Digits n ds) (pos : 0 < n) (digit : d < 10) :
    Digits (n * 10 + d) (ds ++ [digitByte d]) where
  digits := by
    simpa [or_imp, forall_and, isDigit_digitByte digit] using h.digits
  nonempty := by simp
  leading := fun zero => by
    cases ds with
    | nil => exact absurd rfl h.nonempty
    | cons first ds => exact absurd (h.leading zero) (by omega)
  value := fun fits => by
    rw [accumulate_append (h.value (by omega)), accumulate, digitValue_digitByte digit,
      if_pos fits]
    rfl

theorem digits_digitBytes (n : Nat) : Digits n (digitBytes n) := by
  induction n using Nat.strong_induction_on with
  | _ n ih =>
    by_cases digit : n < 10
    · rw [digitBytes_of_lt digit]
      exact {
        digits := by simpa using isDigit_digitByte digit
        nonempty := by simp
        leading := by
          clear ih
          revert n
          decide
        value := fun fits => by simp [accumulate, digitValue_digitByte digit, fits] }
    · have more : 10 ≤ n := by omega
      have all := (ih (n / 10) (by omega)).append (by omega) (Nat.mod_lt n (by decide))
      rwa [← digitBytes_of_le more, Nat.div_add_mod'] at all

/-- **A natural number of 64 bits is read as it was written.** -/
theorem number_written {n : Nat} {negative : Bool} (fits : n ≤ wordLimit) (behind : Parted e rest) :
    number e negative (digitBytes n ++ rest) = .ok (ofInteger negative n, rest) := by
  have all := digits_digitBytes n
  have single : ¬((digitBytes n).head? = some 0x30 ∧ 1 < (digitBytes n).length) := by
    rintro ⟨zero, longer⟩
    rw [all.leading zero, digitBytes_of_lt (by decide)] at longer
    exact absurd longer (by decide)
  rw [number_append all.digits all.nonempty behind.unnumbered, if_neg single,
    numberEnd_of_parted behind, all.value fits]
  rfl

end Json

end BatchPool
