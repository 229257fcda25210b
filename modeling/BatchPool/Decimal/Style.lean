import BatchPool.Decimal.Shortest

/-!
# How a double is written

* `Decimal.Style`: the range of magnitudes that are written positionally, and the sign of a
  positive exponent outside it.
* `Decimal.Style.write`: the text of a double, from its shortest decimal.
-/

namespace BatchPool

namespace Decimal

/-- A way of writing doubles. A decimal `0.d₁d₂… · 10 ^ p` is written positionally if
`leastPoint ≤ p ≤ greatestPoint`, with at least one digit after the point, and otherwise as
`d₁.d₂…e±x` without a point where one digit is enough. -/
structure Style where
  leastPoint : Int
  greatestPoint : Int
  plus : String
  deriving Repr, DecidableEq

/-- The digits of a decimal as text, with zeros in front up to its count. -/
def Digits.text (d : Digits) : String :=
  let s := toString d.digits
  String.ofList (List.replicate (d.count - s.length) '0') ++ s

/-- `n` zeros. -/
def zeros (n : Nat) : String := String.ofList (List.replicate n '0')

/-- A decimal with its point where it belongs. -/
def Digits.positional (d : Digits) : String :=
  if d.point ≤ 0 then "0." ++ zeros d.point.natAbs ++ d.text
  else if (d.count : Int) ≤ d.point then d.text ++ zeros (d.point - d.count).toNat ++ ".0"
  else
    let ds := d.text.toList
    String.ofList (ds.take d.point.toNat) ++ "." ++ String.ofList (ds.drop d.point.toNat)

/-- A decimal with one digit before its point and an exponent. -/
def Digits.scientific (plus : String) (d : Digits) : String :=
  let e := d.point - 1
  let sign := if e < 0 then "-" else plus
  let body := match d.text.toList with
    | [] => "0"
    | [c] => String.ofList [c]
    | c :: cs => String.ofList (c :: '.' :: cs)
  body ++ "e" ++ sign ++ toString e.natAbs

/-- The text of a decimal. -/
def Style.writeDigits (style : Style) (d : Digits) : String :=
  if style.leastPoint ≤ d.point ∧ d.point ≤ style.greatestPoint then d.positional
  else d.scientific style.plus

/-- The text of a finite double. Both zeros are written positionally and keep their sign. -/
def Style.write (style : Style) (x : Float) : String :=
  let sign := if x.toBits.toNat / Nat.pow 2 63 = 1 then "-" else ""
  if x == 0 then sign ++ "0.0" else sign ++ style.writeDigits (shortest x)

end Decimal

end BatchPool
