/-
  QueryClient/RequestFormat.lean
  ==============================
  **The two forms of a request**: a message, or JSON; and the run that reads a request
  in one of them and answers it.
-/
import QueryClient.Generation
import QueryClient.JsonForm
import QueryClient.Wire.Envelope

namespace QueryClient

/-- The form of a request. -/
inductive RequestFormat where
  | message
  | json
deriving DecidableEq, Repr

/-- Why a request gets no response. -/
inductive RunFault where
  | json (fault : Json.Fault)
  | run (fault : Fault)
deriving DecidableEq, Repr

def RunFault.message : RunFault → String
  | .json _ => Request.jsonFaultMessage
  | .run f => f.message

/-- The causes behind a fault, the nearest first. -/
def RunFault.causes : RunFault → List String
  | .json f => [f.message]
  | .run f => f.causes

namespace RequestFormat

/-- Read a request. -/
def decode : RequestFormat → Bytes → Except RunFault Request
  | .message, bs => (Wire.decodeRequest bs).mapError fun f => .run (.request f)
  | .json, bs => (Request.ofJson bs).mapError .json

/-- The response to a request that is still to be read. -/
def respond (format : RequestFormat) (bs : Bytes) : Except RunFault Response :=
  match format.decode bs with
  | .error f => .error f
  | .ok r => r.generate.mapError .run

end RequestFormat
end QueryClient
