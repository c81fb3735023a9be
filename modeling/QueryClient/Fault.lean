/-
  QueryClient/Fault.lean
  ======================
  **What can go wrong in a run**, and how it is told to the user: a message, a code, a
  hint, the causes behind it, and for settings that cannot be parsed the place in
  their text.
-/
import QueryClient.Driver.Emission
import QueryClient.Settings
import QueryClient.Wire.Envelope

namespace QueryClient

/-- Why a run fails. -/
inductive Fault where
  | selection (fault : SelectionFault)
  | settings (fault : SettingsFault)
  | request (fault : Wire.RequestFault)
  | noInsertedId (fault : NoInsertedId)
deriving DecidableEq, Repr

/-- The broad kinds of faults: no usable driver is selected, something cannot be read,
    or a query asks for what the driver cannot do. -/
inductive FaultKind where
  | configuration
  | malformedInput
  | unsupportedOperation
deriving DecidableEq, Repr

def FaultKind.name : FaultKind → String
  | .configuration => "Configuration"
  | .malformedInput => "MalformedInput"
  | .unsupportedOperation => "UnsupportedOperation"

/-- A remark at a place in a source text. -/
structure Label where
  text : String
  offset : Nat
  length : Nat
deriving DecidableEq, Repr

namespace Fault

def kind : Fault → FaultKind
  | .selection _ => .configuration
  | .settings _ => .malformedInput
  | .request _ => .malformedInput
  | .noInsertedId _ => .unsupportedOperation

def message : Fault → String
  | .selection .missing => "no driver configured"
  | .selection (.unknown name) => "unknown driver '" ++ name ++ "'"
  | .settings (.notText _) => "plugin options are not valid UTF-8"
  | .settings (.badText _ _) => "failed to parse plugin options"
  | .request _ => "failed to decode generate request"
  | .noInsertedId f => f.message

/-- The code that the fault is listed under. -/
def code : Fault → String
  | .selection .missing => "sqlts::missing_driver"
  | .selection (.unknown _) => "sqlts::unknown_driver"
  | .settings _ => "sqlts::invalid_options"
  | .request _ => "sqlts::malformed_request"
  | .noInsertedId _ => "sqlts::unsupported_operation"

/-- The names of all drivers, for a hint. -/
def driverNames : String :=
  ", ".intercalate ((Driver.all ⟨false, false⟩ false).map Driver.name)

/-- What the user can do about the fault. -/
def help? : Fault → Option String
  | .selection .missing => some ("set `driver` in the plugin options to one of: " ++ driverNames)
  | .selection (.unknown _) => some ("supported drivers are: " ++ driverNames)
  | .settings _ => none
  | .request _ => some "sqlts expects a sqlc `GenerateRequest` protobuf message on its input"
  | .noInsertedId _ =>
    some "use a driver that exposes the last inserted id, such as mysql2 or turso"

/-- The source text that the labels lie in. -/
def source? : Fault → Option Bytes
  | .settings (.badText source _) => some source
  | _ => none

/-- The remarks in the source text. -/
def labels : Fault → List Label
  | .settings (.badText source f) =>
    (f.place.byteOffset? source).toList.map fun offset => ⟨f.message, offset, 0⟩
  | _ => []

/-- The causes behind the fault, the nearest first. -/
def causes : Fault → List String
  | .selection _ => []
  | .settings (.notText f) => [f.message]
  | .settings (.badText _ f) => [f.message]
  | .request f => [f.message, f.cause]
  | .noInsertedId _ => []

end Fault
end QueryClient
