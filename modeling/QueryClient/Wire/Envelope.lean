/-
  QueryClient/Wire/Envelope.lean
  ==============================
  **Requests from messages, and messages from responses.** A message cannot tell an
  empty text from a missing one, nor a missing number from 0; a request can, and this
  is where the difference is settled. A negative number has no meaning in a request
  and counts as 0.
-/
import QueryClient.Request
import QueryClient.Wire.Message

namespace QueryClient.Wire

/-- Why bytes are not a request: they are no message, or a query in the message has a
    command that does not exist. -/
inductive RequestFault where
  | malformed (fault : Fault)
  | command (query : String) (unknown : UnknownCommand)
deriving DecidableEq, Repr

namespace RequestFault

def message : RequestFault → String
  | .malformed _ => "request is not a valid GenerateRequest message"
  | .command query unknown => "query '" ++ query ++ "' has an " ++ unknown.message

def cause : RequestFault → String
  | .malformed f => f.message
  | .command _ unknown => unknown.message

end RequestFault

/-- A text, unless it is empty. -/
def nonEmpty? (s : String) : Option String := if s = "" then none else some s

/-- A number, or 0 for a negative one. -/
def unsigned (n : Int32) : UInt32 := UInt32.ofNat n.toInt.toNat

/-- The type name as the analyser would write it. -/
def Identifier.qualified? (i : Identifier) : Option String :=
  if i.name = "" then none
  else if i.schema = "" then some i.name
  else some (i.schema ++ "." ++ i.name)

/-- The column that a message describes. -/
def Column.toColumn (c : Column) : QueryClient.Column where
  name? := nonEmpty? c.name
  type? := c.type?.bind Identifier.qualified?
  notNull := c.notNull
  isArray := c.isArray
  arrayDims := unsigned c.arrayDims

/-- The placeholder that a message describes. -/
def Parameter.toParameter (p : Parameter) : QueryClient.Parameter where
  number := unsigned p.number
  column? := p.column?.map Column.toColumn

/-- The query that a message describes. -/
def Query.toQuery (q : Query) : Except RequestFault QueryClient.Query :=
  match Command.ofTag q.command with
  | .error unknown => .error (.command q.name unknown)
  | .ok command =>
    .ok ⟨q.name, command, q.text, q.filename, q.params.map Parameter.toParameter,
      q.columns.map Column.toColumn⟩

/-- The request that a message describes; the first query that cannot be understood
    spoils it. -/
def Request.toRequest (r : Request) : Except RequestFault QueryClient.Request :=
  (r.queries.mapM Query.toQuery).map fun qs => ⟨qs, r.settings⟩

def decodeRequest (bs : Bytes) : Except RequestFault QueryClient.Request :=
  match Request.type.decode bs with
  | .error f => .error (.malformed f)
  | .ok r => r.toRequest

def Response.ofResponse (r : QueryClient.Response) : Response :=
  ⟨r.files.map fun f => ⟨f.name, f.contents⟩⟩

def encodeResponse (r : QueryClient.Response) : Bytes := (Response.ofResponse r).encode

end QueryClient.Wire
