/-
  QueryClient/Json/Fault.lean
  ===========================
  **What is wrong with a JSON text**, and where.

  A fault is found at the byte that cannot be right, or after a value that is not the
  one wanted. Its place counts the bytes of the line up to and including the last byte
  looked at.
-/
import QueryClient.Decimal.Shortest
import QueryClient.Text.Place
import QueryClient.Text.Quoted

namespace QueryClient.Json

/-- A number as it is kept: a whole number of at most 64 bits, or a double. -/
inductive Number where
  | natural (n : Nat)
  | negative (n : Nat)
  | double (x : Decimal.Double)
deriving DecidableEq, Repr

/-- The text of a number; `negative n` is the number below zero. -/
def Number.text : Number → String
  | .natural n => n.repr
  | .negative n => "-" ++ n.repr
  | .double x => x.text

/-- A value that was found where another kind of value was wanted. -/
inductive Found where
  | null
  | bool (b : Bool)
  | number (n : Number)
  | string (s : String)
  | list
  | object
deriving DecidableEq, Repr

/-- How the value is named in a message. -/
def Found.text : Found → String
  | .null => "null"
  | .bool b => "boolean `" ++ (if b then "true" else "false") ++ "`"
  | .number (.double x) => "floating point `" ++ x.text ++ "`"
  | .number n => "integer `" ++ n.text ++ "`"
  | .string s => "string " ++ Text.quoted s
  | .list => "sequence"
  | .object => "map"

inductive Cause where
  | endInValue
  | endInObject
  | endInList
  | endInString
  | expectedValue
  | expectedColon
  | expectedObjectComma
  | expectedListComma
  | keyNotText
  | trailingComma
  | trailingCharacters
  | badNumber
  | badWord
  | badEscape
  | controlCharacter
  | loneSurrogate
  | halfSurrogate
  | notText
  | numberTooLarge
  | nestedTooDeeply
  | duplicateField (name : String)
  | missingField (name : String)
  | unknownVariant (name : String) (known : List String)
  | wrongLength (length : Nat) (wanted : String)
  | wrongValue (found : Found) (wanted : String)
  | wrongType (found : Found) (wanted : String)
deriving DecidableEq, Repr

def Cause.message : Cause → String
  | .endInValue => "EOF while parsing a value"
  | .endInObject => "EOF while parsing an object"
  | .endInList => "EOF while parsing a list"
  | .endInString => "EOF while parsing a string"
  | .expectedValue => "expected value"
  | .expectedColon => "expected `:`"
  | .expectedObjectComma => "expected `,` or `\x7d`"
  | .expectedListComma => "expected `,` or `]`"
  | .keyNotText => "key must be a string"
  | .trailingComma => "trailing comma"
  | .trailingCharacters => "trailing characters"
  | .badNumber => "invalid number"
  | .badWord => "expected ident"
  | .badEscape => "invalid escape"
  | .controlCharacter => "control character (\\u0000-\\u001F) found while parsing a string"
  | .loneSurrogate => "lone leading surrogate in hex escape"
  | .halfSurrogate => "unexpected end of hex escape"
  | .notText => "invalid unicode code point"
  | .numberTooLarge => "number out of range"
  | .nestedTooDeeply => "recursion limit exceeded"
  | .duplicateField name => "duplicate field `" ++ name ++ "`"
  | .missingField name => "missing field `" ++ name ++ "`"
  | .unknownVariant name known =>
    "unknown variant `" ++ name ++ "`, expected one of " ++
      ", ".intercalate (known.map fun k => "`" ++ k ++ "`")
  | .wrongLength length wanted => "invalid length " ++ length.repr ++ ", expected " ++ wanted
  | .wrongValue found wanted => "invalid value: " ++ found.text ++ ", expected " ++ wanted
  | .wrongType found wanted => "invalid type: " ++ found.text ++ ", expected " ++ wanted

/-- A cause and its place. -/
structure Fault where
  cause : Cause
  place : Text.Place
deriving DecidableEq, Repr

def Fault.message (f : Fault) : String :=
  f.cause.message ++ " at line " ++ f.place.line.repr ++ " column " ++ f.place.column.repr

end QueryClient.Json
