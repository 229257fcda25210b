/-!
# The shortest decimal of a double

The fewest decimal digits that read back as the same double, and of those the nearest.

* `Decimal.Binary`: a positive double as `mantissa · 2 ^ exponent`.
* `Decimal.shortest`: digits `d₁ d₂ … dₙ` and a point position `p` with value
  `0.d₁d₂…dₙ · 10 ^ p`. For `n = 1, 2, …` the two neighbours of the value on the grid of `n`
  digits are tested in exact arithmetic against the interval of reals that round to the double;
  the first grid with a hit wins.
-/

namespace BatchPool

namespace Decimal

/-- A positive double as `mantissa · 2 ^ exponent`. `tight` marks a power of two, whose lower
neighbour is only half as far away as its upper one. -/
structure Binary where
  mantissa : Nat
  exponent : Int
  tight : Bool
  deriving Repr, DecidableEq

/-- The magnitude of a finite double. -/
def Binary.ofFloat (x : Float) : Binary :=
  let bits := x.toBits.toNat
  let fraction : Nat := bits % Nat.pow 2 52
  let biased : Nat := bits / Nat.pow 2 52 % Nat.pow 2 11
  if biased = 0 then ⟨fraction, -1074, false⟩
  else ⟨Nat.pow 2 52 + fraction, (biased : Int) - 1075, fraction = 0 && 1 < biased⟩

/-- A decimal: the value `0.d₁d₂…dₙ · 10 ^ point`, where `digits` holds `d₁d₂…dₙ` as a number. -/
structure Digits where
  digits : Nat
  count : Nat
  point : Int
  deriving Repr, DecidableEq

/-- The fraction `above / below` scaled by `10 ^ e`, as a fraction again. -/
def scale (above below : Nat) (e : Int) : Nat × Nat :=
  if e < 0 then (above, below * Nat.pow 10 e.natAbs) else (above * Nat.pow 10 e.natAbs, below)

/-- The number of decimal digits of `n`; zero has none. -/
def length (n : Nat) : Nat :=
  if n = 0 then 0 else length (n / 10) + 1
termination_by n
decreasing_by omega

/-- How many zeros follow the decimal point of `above / below < 1`, looking at most `fuel` far. -/
def leadingZeros : (fuel above below : Nat) → Nat
  | 0, _, _ => 0
  | fuel + 1, above, below =>
    if below ≤ above * 10 then 0 else leadingZeros fuel (above * 10) below + 1

/-- The position `p` with `10 ^ (p - 1) ≤ above / below < 10 ^ p`. No double needs more than 324
leading zeros. -/
def point (above below : Nat) : Int :=
  if below ≤ above then (length (above / below) : Int)
  else -(leadingZeros 330 above below : Int)

/-- The reals that round to a double, all over one denominator `below`: the open interval from
`low` to `high` around `value`, closed if `closed`. -/
structure Window where
  low : Nat
  value : Nat
  high : Nat
  below : Nat
  closed : Bool

/-- The window of a double: half way to its neighbours, which belong to it if its mantissa is
even. -/
def Binary.window (b : Binary) : Window :=
  let up := Nat.pow 2 (b.exponent - 2).toNat
  let below := Nat.pow 2 (2 - b.exponent).toNat
  { low := (4 * b.mantissa - if b.tight then 1 else 2) * up
    value := 4 * b.mantissa * up
    high := (4 * b.mantissa + 2) * up
    below := below
    closed := b.mantissa % 2 = 0 }

/-- The number `above / below` lies in the window. -/
def Window.holds (w : Window) (above below : Nat) : Bool :=
  if w.closed then w.low * below ≤ above * w.below && above * w.below ≤ w.high * below
  else w.low * below < above * w.below && above * w.below < w.high * below

/-- The neighbour on the grid of `count` digits that reads back, the nearer one if both do, the
even one if they are equally near. -/
def Window.onGrid (w : Window) (p : Int) (count : Nat) : Option Digits :=
  let (above, below) := scale w.value w.below (count - p)
  let d := above / below
  let fits (n : Nat) : Bool :=
    let (a, b) := scale n 1 (p - count)
    w.holds a b
  let down := fits d
  let upward := fits (d + 1)
  let twice := 2 * (above % below)
  if down && (!upward || twice < below || (twice = below && d % 2 = 0)) then some ⟨d, count, p⟩
  else if upward then some ⟨d + 1, count, p⟩
  else none

/-- The first grid with a hit, from `count` digits on, for at most `fuel` further digits. -/
def Window.search (w : Window) (p : Int) : (fuel count : Nat) → Digits
  | 0, count =>
    let (above, below) := scale w.value w.below (count - p)
    ⟨above / below, count, p⟩
  | fuel + 1, count =>
    match w.onGrid p count with
    | some d => d
    | none => w.search p fuel (count + 1)

/-- The same decimal without the zeros at its end; `fuel` bounds how many are dropped. -/
def Digits.trim : (fuel : Nat) → Digits → Digits
  | 0, d => d
  | fuel + 1, d =>
    if d.digits % 10 = 0 ∧ 1 < d.count then trim fuel ⟨d.digits / 10, d.count - 1, d.point⟩ else d

/-- A decimal whose digits overflowed their count, such as `10` in one digit, in normal form. -/
def Digits.carry (d : Digits) : Digits :=
  if d.digits = Nat.pow 10 d.count then ⟨1, 1, d.point + 1⟩ else d

/-- The shortest decimal of a finite, non-zero double. Seventeen digits always read back. -/
def shortest (x : Float) : Digits :=
  let w := (Binary.ofFloat x).window
  Digits.trim 17 (w.search (point w.value w.below) 17 1).carry

end Decimal

end BatchPool
