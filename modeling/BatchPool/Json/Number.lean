import BatchPool.Json.Input

/-!
# Numbers

A number without fraction and exponent is an integer as long as it fits 64 bits; any other is a
double.

* `Json.accumulate`: the digits of a number as one natural number, as long as it fits 64 bits.
  Digits beyond that are not looked at; those before the point count as a power of ten.
* `Json.scaled`: a double times a power of ten, by one multiplication or division for each step of
  up to 308 powers. A result beyond the largest double is refused, one below the smallest is zero.
* `Json.number`: reads a number after its sign.
-/

namespace BatchPool

namespace Json

/-- The largest natural number of 64 bits. -/
def wordLimit : Nat := Nat.pow 2 64 - 1

/-- The largest exponent of 32 bits. -/
def exponentLimit : Nat := Nat.pow 2 31 - 1

/-- Appends digits to a natural number while it fits 64 bits. Returns the digits that are left. -/
def accumulate (n : Nat) : Bytes → Nat × Bytes
  | [] => (n, [])
  | d :: ds =>
    if n * 10 + digitValue d ≤ wordLimit then accumulate (n * 10 + digitValue d) ds
    else (n, d :: ds)

/-- The double nearest to `10 ^ k`. -/
def powerOfTen (k : Nat) : Float := Float.ofScientific 1 false k

/-- `f · 10 ^ e`, or `none` beyond the largest double. -/
def scaled (f : Float) (e : Int) : Option Float :=
  if 0 ≤ e then
    if e ≤ 308 then
      let g := f * powerOfTen e.toNat
      if g.isInf then none else some g
    else if f == 0 then some f
    else none
  else if -308 ≤ e then some (f / powerOfTen e.natAbs)
  else if f == 0 then some f
  else scaled (f / powerOfTen 308) (e + 308)
termination_by (-e).toNat
decreasing_by omega

/-- A double with a sign. -/
def signed (negative : Bool) (f : Float) : Float := if negative then -f else f

/-- The double `±n · 10 ^ e` as a value. -/
def ofDecimal (negative : Bool) (n : Nat) (e : Int) : Except Fault Json :=
  match scaled (Float.ofNat n) e with
  | some f => .ok (.float (signed negative f))
  | none => .error (.malformed .numberOutOfRange)

/-- The integer `±n` as a value: an integer if it fits 64 bits with its sign, and otherwise, as for
a negative zero, a double. -/
def ofInteger (negative : Bool) (n : Nat) : Json :=
  if negative then
    if n = 0 ∨ Nat.pow 2 63 < n then .float (signed true (Float.ofNat n)) else .int (-(n : Int))
  else .int n

/-- An exponent that was read. `huge` stands for one beyond 32 bits. -/
inductive Exponent where
  | small (value : Nat)
  | huge
  deriving Repr, DecidableEq

/-- Reads exponent digits after the first. An exponent is huge from the digit on that takes it
beyond 32 bits. Returns what follows that digit, or what follows the last digit. -/
def exponentDigits (n : Nat) : Bytes → Exponent × Bytes
  | [] => (.small n, [])
  | b :: input =>
    if isDigit b then
      if n * 10 + digitValue b ≤ exponentLimit then exponentDigits (n * 10 + digitValue b) input
      else (.huge, input)
    else (.small n, b :: input)

/-- Reads the sign of an exponent. -/
def exponentSign : Bytes → Bool × Bytes
  | [] => (false, [])
  | b :: input =>
    if b = 0x2B then (false, input) else if b = 0x2D then (true, input) else (false, b :: input)

/-- What a number is once its last byte was read: the device has to be there still, since the number
could go on. -/
def atEnd (e : Ending) (rest : Bytes) (value : Except Fault Json) : Except Fault (Json × Bytes) :=
  match e, rest with
  | .broken reason, [] => .error (.unreadable reason)
  | _, _ => value.map fun v => (v, rest)

/-- Reads an exponent after its `e` for the digits `n` with the exponent `start` so far. A positive
exponent beyond 32 bits is refused for any number but zero; a negative one gives zero. -/
def exponent (e : Ending) (negative : Bool) (n : Nat) (start : Int) (input : Bytes) :
    Except Fault (Json × Bytes) :=
  match exponentSign input with
  | (_, []) => .error (endFault e .value)
  | (minus, b :: rest) =>
    if isDigit b then
      match exponentDigits (digitValue b) rest with
      | (.small k, after) =>
        atEnd e after (ofDecimal negative n (if minus then start - k else start + k))
      | (.huge, after) =>
        if n ≠ 0 ∧ ¬ minus then .error (.malformed .numberOutOfRange)
        else atEnd e (after.dropWhile isDigit) (.ok (.float (signed negative 0)))
    else .error (.malformed .invalidNumber)

/-- Reads a fraction after its point for the digits `n` with `extra` further digits before the
point. -/
def fraction (e : Ending) (negative : Bool) (n extra : Nat) (input : Bytes) :
    Except Fault (Json × Bytes) :=
  match input.takeWhile isDigit with
  | [] =>
    match input with
    | [] => .error (endFault e .value)
    | _ => .error (.malformed .invalidNumber)
  | ds =>
    let (m, left) := accumulate n ds
    let start : Int := extra - ((ds.length - left.length : Nat) : Int)
    match input.dropWhile isDigit with
    | [] => atEnd e [] (ofDecimal negative m start)
    | b :: rest =>
      if b = 0x65 ∨ b = 0x45 then exponent e negative m start rest
      else atEnd e (b :: rest) (ofDecimal negative m start)

/-- Reads a number after its sign. A number that starts with zero has no further digit before the
point. -/
def number (e : Ending) (negative : Bool) (input : Bytes) : Except Fault (Json × Bytes) :=
  match input with
  | [] => .error (endFault e .value)
  | first :: _ =>
    if isDigit first then
      let ds := input.takeWhile isDigit
      let (n, left) := accumulate 0 ds
      if first = 0x30 ∧ 1 < ds.length then .error (.malformed .invalidNumber)
      else
        let value := if left.isEmpty then .ok (ofInteger negative n) else
          ofDecimal negative n left.length
        match input.dropWhile isDigit with
        | [] => atEnd e [] value
        | b :: rest =>
          if b = 0x2E then fraction e negative n left.length rest
          else if b = 0x65 ∨ b = 0x45 then exponent e negative n left.length rest
          else atEnd e (b :: rest) value
    else .error (.malformed .invalidNumber)

/-! ## Reading shortens the input -/

theorem length_dropWhile_le (p : UInt8 → Bool) (input : Bytes) :
    (input.dropWhile p).length ≤ input.length :=
  (List.dropWhile_sublist p).length_le

theorem length_exponentDigits_le (n : Nat) (input : Bytes) :
    (exponentDigits n input).2.length ≤ input.length := by
  induction input generalizing n with
  | nil => simp [exponentDigits]
  | cons b input ih =>
    simp only [exponentDigits]
    split
    · split
      · exact Nat.le_succ_of_le (ih _)
      · simp
    · simp

theorem length_exponentSign_le (input : Bytes) :
    (exponentSign input).2.length ≤ input.length := by
  cases input with
  | nil => simp [exponentSign]
  | cons b input => simp only [exponentSign]; split <;> (try split) <;> simp

theorem rest_of_atEnd {e : Ending} {rest out : Bytes} {value : Except Fault Json} {v : Json}
    (h : atEnd e rest value = .ok (v, out)) : out = rest := by
  cases value <;> cases e <;> cases rest <;> simp_all [atEnd, Except.map]

theorem length_exponent_lt {e : Ending} {negative : Bool} {n : Nat} {start : Int}
    {input out : Bytes} {v : Json} (h : exponent e negative n start input = .ok (v, out)) :
    out.length < input.length := by
  have hs := length_exponentSign_le input
  unfold exponent at h
  split at h
  · simp at h
  · next minus b rest heq =>
    rw [heq] at hs
    simp at hs
    split at h
    · have hd := length_exponentDigits_le (digitValue b) rest
      split at h
      · next k after hk =>
        rw [hk] at hd
        have := rest_of_atEnd h
        subst this
        simp at hd
        omega
      · next after hk =>
        rw [hk] at hd
        split at h
        · simp at h
        · have := rest_of_atEnd h
          subst this
          have := length_dropWhile_le isDigit after
          simp at hd
          omega
    · simp at h

theorem length_fraction_lt {e : Ending} {negative : Bool} {n extra : Nat} {input out : Bytes}
    {v : Json} (h : fraction e negative n extra input = .ok (v, out)) :
    out.length < input.length := by
  unfold fraction at h
  split at h
  · split at h <;> simp at h
  · next _ hne =>
    have hlen : (input.dropWhile isDigit).length < input.length := by
      have happ := congrArg List.length (List.takeWhile_append_dropWhile (p := isDigit) (l := input))
      simp only [List.length_append] at happ
      have : 0 < (input.takeWhile isDigit).length := List.length_pos_iff.mpr hne
      omega
    simp only at h
    split at h
    · next hdrop =>
      have := rest_of_atEnd h
      subst this
      rw [hdrop] at hlen
      exact hlen
    · next b rest hdrop =>
      rw [hdrop] at hlen
      simp at hlen
      split at h
      · have := length_exponent_lt h
        omega
      · have := rest_of_atEnd h
        subst this
        simpa using hlen

theorem length_number_lt {e : Ending} {negative : Bool} {input out : Bytes} {v : Json}
    (h : number e negative input = .ok (v, out)) : out.length < input.length := by
  unfold number at h
  split at h
  · simp at h
  · next first tail =>
    split at h
    · next hfirst =>
      have hlen : ((first :: tail).dropWhile isDigit).length < (first :: tail).length := by
        have := length_dropWhile_le isDigit tail
        simp [List.dropWhile, hfirst]
        omega
      simp only at h
      split at h
      · simp at h
      · split at h
        · next hdrop =>
          have := rest_of_atEnd h
          subst this
          simp
        · next b rest hdrop =>
          rw [hdrop] at hlen
          simp only [List.length_cons] at hlen ⊢
          split at h
          · have := length_fraction_lt h
            omega
          · split at h
            · have := length_exponent_lt h
              omega
            · have := rest_of_atEnd h
              subst this
              simp only [List.length_cons]
              omega
    · simp at h

end Json

end BatchPool
