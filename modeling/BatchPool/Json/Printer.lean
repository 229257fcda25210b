import BatchPool.Json.Basic
import BatchPool.Decimal.Style

/-!
# Compact JSON text

The one written form of a value: no spaces, the members of an object in the order of their keys.

* `Json.numberStyle`: doubles from `1e-5` up to `1e16` are written positionally.
* `Json.escape`: a quote, a backslash and the control characters below U+0020 are escaped, all else
  is copied.
* `Json.compact`: the text of a value.
-/

namespace BatchPool

namespace Json

/-- Doubles from `1e-5` up to `1e16` are written positionally, others with a signed exponent. -/
def numberStyle : Decimal.Style := ⟨-4, 16, "+"⟩

/-! ## Text -/

/-- A hexadecimal digit in lower case. -/
def hexDigit (n : Nat) : Char :=
  if n < 10 then Char.ofNat (48 + n) else Char.ofNat (87 + n)

/-- How one character is written inside quotes. -/
def escape (c : Char) : List Char :=
  if c.toNat = 0x22 then ['\\', c]
  else if c.toNat = 0x5C then ['\\', c]
  else if c.toNat = 0x08 then ['\\', 'b']
  else if c.toNat = 0x09 then ['\\', 't']
  else if c.toNat = 0x0A then ['\\', 'n']
  else if c.toNat = 0x0C then ['\\', 'f']
  else if c.toNat = 0x0D then ['\\', 'r']
  else if c.toNat < 0x20 then ['\\', 'u', '0', '0', hexDigit (c.toNat / 16), hexDigit (c.toNat % 16)]
  else [c]

/-- The characters of a text value, quotes included. -/
def quoted (s : String) : List Char :=
  Char.ofNat 0x22 :: (s.toList.flatMap escape ++ [Char.ofNat 0x22])

/-! ## Values -/

mutual
/-- The characters of a value. -/
def render : Json → List Char
  | .null => "null".toList
  | .bool true => "true".toList
  | .bool false => "false".toList
  | .int n => (toString n).toList
  | .float x => (numberStyle.write x).toList
  | .str s => quoted s
  | .arr items => '[' :: renderItems items
  | .obj members => '{' :: renderMembers members

/-- The characters of an array after its opening bracket. -/
def renderItems : List Json → List Char
  | [] => [']']
  | [v] => render v ++ [']']
  | v :: rest => render v ++ ',' :: renderItems rest

/-- The characters of an object after its opening brace. -/
def renderMembers : List (String × Json) → List Char
  | [] => ['}']
  | [(k, v)] => quoted k ++ ':' :: (render v ++ ['}'])
  | (k, v) :: rest => quoted k ++ ':' :: (render v ++ ',' :: renderMembers rest)
end

/-- The text of a value. -/
def compact (v : Json) : String := String.ofList v.render

end Json

end BatchPool
