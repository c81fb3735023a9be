/-
  QueryClient/Wire/Fault.lean
  ===========================
  **Why bytes are not the message they should be**: a cause, and the fields that were
  being read when it showed.
-/

namespace QueryClient.Wire

/-- How the payload of a field is written: as a number of variable length, as eight
    bytes, as a length and so many bytes, as a group of fields between two marks, or
    as four bytes. -/
inductive WireType where
  | varint
  | fixed64
  | lengthDelimited
  | groupStart
  | groupEnd
  | fixed32
deriving DecidableEq, Repr

namespace WireType

/-- The number that stands for a wire type in a key. -/
def code : WireType → Nat
  | .varint => 0
  | .fixed64 => 1
  | .lengthDelimited => 2
  | .groupStart => 3
  | .groupEnd => 4
  | .fixed32 => 5

def all : List WireType := [.varint, .fixed64, .lengthDelimited, .groupStart, .groupEnd, .fixed32]

/-- The wire type with the given number. -/
def ofCode? (n : Nat) : Option WireType := all.find? (·.code == n)

/-- What a wire type is called in a message to the user. -/
def label : WireType → String
  | .varint => "Varint"
  | .fixed64 => "SixtyFourBit"
  | .lengthDelimited => "LengthDelimited"
  | .groupStart => "StartGroup"
  | .groupEnd => "EndGroup"
  | .fixed32 => "ThirtyTwoBit"

end WireType

/-- What is wrong with the bytes. -/
inductive Cause where
  | badVarint
  | pastTheEnd
  | pastTheMessage
  | strayGroupEnd
  | unknownWireType (code : Nat)
  | fieldZero
  | keyTooLarge (key : Nat)
  | otherWireType (found expected : WireType)
  | notText
  | nestedTooDeeply
deriving DecidableEq, Repr

def Cause.message : Cause → String
  | .badVarint => "invalid varint"
  | .pastTheEnd => "buffer underflow"
  | .pastTheMessage => "delimited length exceeded"
  | .strayGroupEnd => "unexpected end group tag"
  | .unknownWireType code => "invalid wire type value: " ++ code.repr
  | .fieldZero => "invalid tag value: 0"
  | .keyTooLarge key => "invalid key value: " ++ key.repr
  | .otherWireType found expected =>
    "invalid wire type: " ++ found.label ++ " (expected " ++ expected.label ++ ")"
  | .notText => "invalid string value: data is not UTF-8 encoded"
  | .nestedTooDeeply => "recursion limit reached"

/-- A field of a message, by the names of both. -/
structure FieldPath where
  message : String
  field : String
deriving DecidableEq, Repr

/-- A cause, and the fields around it from the innermost outwards. -/
structure Fault where
  path : List FieldPath
  cause : Cause
deriving DecidableEq, Repr

namespace Fault

/-- A cause outside every field. -/
def bare (cause : Cause) : Fault := ⟨[], cause⟩

/-- The fault as seen from the field around it. -/
def within (f : Fault) (p : FieldPath) : Fault := { f with path := f.path ++ [p] }

def message (f : Fault) : String :=
  "failed to decode Protobuf message: " ++
    String.join (f.path.map fun p => p.message ++ "." ++ p.field ++ ": ") ++ f.cause.message

end Fault
end QueryClient.Wire
