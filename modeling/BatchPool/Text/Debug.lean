import BatchPool.Text.Printable

/-!
# Text as it is shown in messages

* `Text.debug`: a text in quotes. The quote, the backslash and the usual control characters have
  short escapes; any other character that is not printable is shown by its code point.
-/

namespace BatchPool

namespace Text

/-- The code point of a character in hexadecimal, lower case and without leading zeros. -/
def codePoint (c : Char) : List Char := Nat.toDigits 16 c.toNat

/-- How one character is shown. -/
def debugChar (c : Char) : List Char :=
  if c.toNat = 0x00 then ['\\', '0']
  else if c.toNat = 0x09 then ['\\', 't']
  else if c.toNat = 0x0D then ['\\', 'r']
  else if c.toNat = 0x0A then ['\\', 'n']
  else if c.toNat = 0x22 ∨ c.toNat = 0x5C then ['\\', c]
  else if isPrintable c then [c]
  else "\\u\x7b".toList ++ codePoint c ++ ['\x7d']

/-- A text in quotes. -/
def debug (s : String) : String :=
  String.ofList (Char.ofNat 0x22 :: (s.toList.flatMap debugChar ++ [Char.ofNat 0x22]))

end Text

end BatchPool
