import BatchPool.Json.Printer
import BatchPool.Text.Debug

/-!
# What can be wrong with JSON text

* `Json.Place`: what was being read when the input ended.
* `Json.Flaw`: how the text breaks the grammar.
* `Json.Mismatch`: how a well-formed value fails to have the wanted shape.
* `Json.Fault`: any of these, or a device that cannot be read; `Fault.message` is its text.
-/

namespace BatchPool

namespace Json

/-- What was being read when the input ended. -/
inductive Place where
  | value
  | text
  | list
  | object
  deriving Repr, DecidableEq

/-- How a text breaks the grammar. -/
inductive Flaw where
  | expectedValue
  | expectedLiteral
  | expectedColon
  | expectedItemEnd
  | expectedMemberEnd
  | keyNotText
  | trailingComma
  | trailingCharacters
  | invalidNumber
  | numberOutOfRange
  | controlCharacter
  | invalidEscape
  | unfinishedSurrogate
  | loneSurrogate
  | invalidCodePoint
  | tooDeep
  deriving Repr, DecidableEq

/-- What was found in place of a wanted value. -/
inductive Found where
  | null
  | bool (b : Bool)
  | integer (n : Int)
  | float (x : Float)
  | text (s : String)
  | list
  | object
  deriving Repr

/-- How a well-formed value fails to have the wanted shape. -/
inductive Mismatch where
  | wrongType (found : Found) (wanted : String)
  | outOfRange (n : Int) (wanted : String)
  | wrongLength (n : Nat) (wanted : String)
  | missingField (name : String)
  | duplicateField (name : String)
  deriving Repr

/-- Why a value could not be read. -/
inductive Fault where
  | ended (place : Place)
  | malformed (flaw : Flaw)
  | mismatched (mismatch : Mismatch)
  | unreadable (reason : String)
  deriving Repr

/-- What was found, in words. -/
def Found.describe : Found → String
  | .null => "null"
  | .bool b => "boolean `" ++ toString b ++ "`"
  | .integer n => "integer `" ++ toString n ++ "`"
  | .float x => "floating point `" ++ numberStyle.write x ++ "`"
  | .text s => "string " ++ Text.debug s
  | .list => "sequence"
  | .object => "map"

/-- The kind of a value. -/
def found : Json → Found
  | .null => .null
  | .bool b => .bool b
  | .int n => .integer n
  | .float x => .float x
  | .str s => .text s
  | .arr _ => .list
  | .obj _ => .object

/-- The text of a shape error. -/
def Mismatch.message : Mismatch → String
  | .wrongType f wanted => "invalid type: " ++ f.describe ++ ", expected " ++ wanted
  | .outOfRange n wanted =>
    "invalid value: integer `" ++ toString n ++ "`, expected " ++ wanted
  | .wrongLength n wanted => "invalid length " ++ toString n ++ ", expected " ++ wanted
  | .missingField name => "missing field `" ++ name ++ "`"
  | .duplicateField name => "duplicate field `" ++ name ++ "`"

/-- The text of a grammar error. -/
def Flaw.message : Flaw → String
  | .expectedValue => "expected value"
  | .expectedLiteral => "expected ident"
  | .expectedColon => "expected `:`"
  | .expectedItemEnd => "expected `,` or `]`"
  | .expectedMemberEnd => "expected `,` or `\x7d`"
  | .keyNotText => "key must be a string"
  | .trailingComma => "trailing comma"
  | .trailingCharacters => "trailing characters"
  | .invalidNumber => "invalid number"
  | .numberOutOfRange => "number out of range"
  | .controlCharacter =>
    "control character (\\u0000-\\u001F) found while parsing a string"
  | .invalidEscape => "invalid escape"
  | .unfinishedSurrogate => "unexpected end of hex escape"
  | .loneSurrogate => "lone leading surrogate in hex escape"
  | .invalidCodePoint => "invalid unicode code point"
  | .tooDeep => "recursion limit exceeded"

/-- The text of an early end. -/
def Place.message : Place → String
  | .value => "EOF while parsing a value"
  | .text => "EOF while parsing a string"
  | .list => "EOF while parsing a list"
  | .object => "EOF while parsing an object"

/-- The text of a fault. -/
def Fault.message : Fault → String
  | .ended place => place.message
  | .malformed flaw => flaw.message
  | .mismatched mismatch => mismatch.message
  | .unreadable reason => reason

end Json

end BatchPool
