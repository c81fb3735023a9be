/-
  QueryClient/JsonForm.lean
  =========================
  **Queries, requests and responses as JSON**, in both directions.

  What is written holds every field. What is read may leave out all but the name, the
  command, the text and the source file of a query, and the name and the contents of
  a file.
-/
import QueryClient.Json.Value
import QueryClient.Request

namespace QueryClient

/-! ### Columns and placeholders -/

namespace Column

/-- A column as a record. -/
def record : Json.RecordType Column where
  name := "Column"
  fields :=
    [⟨"name", false, fun c => do
        let v ← Json.readNullable Json.readText
        pure { c with name? := v }⟩,
     ⟨"type", false, fun c => do
        let v ← Json.readNullable Json.readText
        pure { c with type? := v }⟩,
     ⟨"notNull", false, fun c => do
        let v ← Json.readBool
        pure { c with notNull := v }⟩,
     ⟨"isArray", false, fun c => do
        let v ← Json.readBool
        pure { c with isArray := v }⟩,
     ⟨"arrayDims", false, fun c => do
        let v ← Json.readUInt32
        pure { c with arrayDims := v }⟩]
  empty := unknown

/-- A column as a value. -/
def json (c : Column) : Json.Value :=
  .object [("name", .ofText? c.name?), ("type", .ofText? c.type?), ("notNull", .bool c.notNull),
    ("isArray", .bool c.isArray), ("arrayDims", .number (.natural c.arrayDims.toNat))]

end Column

namespace Parameter

/-- A placeholder as a record. -/
def record : Json.RecordType Parameter where
  name := "Parameter"
  fields :=
    [⟨"number", false, fun p => do
        let v ← Json.readUInt32
        pure { p with number := v }⟩,
     ⟨"column", false, fun p => do
        let v ← Json.readNullable Column.record.read
        pure { p with column? := v }⟩]
  empty := unknown

/-- A placeholder as a value. -/
def json (p : Parameter) : Json.Value :=
  .object [("number", .number (.natural p.number.toNat)),
    ("column", (p.column?.map Column.json).getD .null)]

end Parameter

/-! ### Queries -/

namespace Query

/-- A query as a record. -/
def record : Json.RecordType Query where
  name := "Query"
  fields :=
    [⟨"name", true, fun q => do
        let v ← Json.readText
        pure { q with name := v }⟩,
     ⟨"cmd", true, fun q => do
        let v ← Json.readChoice Command.tag Command.all
        pure { q with command := v }⟩,
     ⟨"text", true, fun q => do
        let v ← Json.readText
        pure { q with text := v }⟩,
     ⟨"filename", true, fun q => do
        let v ← Json.readText
        pure { q with filename := v }⟩,
     ⟨"params", false, fun q => do
        let v ← Json.readList Parameter.record.read
        pure { q with params := v }⟩,
     ⟨"columns", false, fun q => do
        let v ← Json.readList Column.record.read
        pure { q with columns := v }⟩]
  empty := plain "" .exec "" ""

/-- A query as a value. -/
def json (q : Query) : Json.Value :=
  .object [("name", .string q.name), ("cmd", .string q.command.tag), ("text", .string q.text),
    ("filename", .string q.filename), ("params", .list (q.params.map Parameter.json)),
    ("columns", .list (q.columns.map Column.json))]

end Query

/-! ### Requests -/

namespace Request

/-- How deep the settings inside a request may be nested. -/
def settingsDepth : Nat := 126

/-- The settings inside a request as the bytes that they stand for: a string holds
    them ready-made, any other value is written out. -/
def settingsBytes : Option Json.Value → Bytes
  | none => []
  | some .null => []
  | some (.string s) => Text.utf8 s
  | some v => Text.utf8 v.text

/-- A request as a record. -/
def record : Json.RecordType Request where
  name := "JsonRequest"
  fields :=
    [⟨"queries", false, fun r => do
        let v ← Json.readList Query.record.read
        pure { r with queries := v }⟩,
     ⟨"pluginOptions", false, fun r => do
        let v ← Json.readNullable (Json.readValue settingsDepth)
        pure { r with settings := settingsBytes v }⟩]
  empty := ⟨[], []⟩

/-- Read a request. -/
def ofJson (bs : Bytes) : Except Json.Fault Request := Json.readAll record.read bs

/-- What is said of a request that cannot be read. -/
def jsonFaultMessage : String := "Failed to parse JSON request"

end Request

/-! ### Responses -/

namespace OutputFile

/-- A file as a record. -/
def record : Json.RecordType OutputFile where
  name := "GeneratedFile"
  fields :=
    [⟨"name", true, fun f => do
        let v ← Json.readText
        pure { f with name := v }⟩,
     ⟨"contents", true, fun f => do
        let v ← Json.readList Json.readByte
        pure { f with contents := v }⟩]
  empty := ⟨"", []⟩

/-- A file as a value; its contents are a list of bytes. -/
def json (f : OutputFile) : Json.Value :=
  .object [("name", .string f.name),
    ("contents", .list (f.contents.map fun b => .number (.natural b.toNat)))]

end OutputFile

namespace Response

/-- A response as a record. -/
def record : Json.RecordType Response where
  name := "GenerateResponse"
  fields :=
    [⟨"files", true, fun r => do
        let v ← Json.readList OutputFile.record.read
        pure { r with files := v }⟩]
  empty := ⟨[]⟩

/-- Read a response. -/
def ofJson (bs : Bytes) : Except Json.Fault Response := Json.readAll record.read bs

/-- A response as a value. -/
def json (r : Response) : Json.Value := .object [("files", .list (r.files.map OutputFile.json))]

end Response
end QueryClient
