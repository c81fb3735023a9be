/-
  QueryClient/Proofs/Json/RoundTrip.lean
  ======================================
  **Requests and responses come back from JSON.** Each record type is described by its
  members, from the innermost type to the outermost. So a request that came as a message
  can be sent as JSON instead, and is answered in the same way.
-/
import QueryClient.Proofs.Json.Record
import QueryClient.Proofs.Wire.RoundTrip
import QueryClient.RequestFormat

namespace QueryClient

open Json

/-! ### Columns and placeholders -/

namespace Column

def members (c : Column) : List (Member Column) :=
  [⟨"name", .ofText? c.name?, fun r => { r with name? := c.name? }⟩,
   ⟨"type", .ofText? c.type?, fun r => { r with type? := c.type? }⟩,
   ⟨"notNull", .bool c.notNull, fun r => { r with notNull := c.notNull }⟩,
   ⟨"isArray", .bool c.isArray, fun r => { r with isArray := c.isArray }⟩,
   ⟨"arrayDims", .number (.natural c.arrayDims.toNat),
      fun r => { r with arrayDims := c.arrayDims }⟩]

theorem reads_ofText? (s? : Option String) :
    Reads (readNullable readText) (.ofText? s?) s? := by
  cases s? with
  | none => exact reads_null readText
  | some s => exact (reads_text s).nullable nofun

theorem holds_members (c : Column) : record.Holds c.members c where
  nodup := by decide
  members :=
    .cons ⟨rfl, fun _ => (reads_ofText? c.name?).map _⟩ <|
    .cons ⟨rfl, fun _ => (reads_ofText? c.type?).map _⟩ <|
    .cons ⟨rfl, fun _ => (reads_bool c.notNull).map _⟩ <|
    .cons ⟨rfl, fun _ => (reads_bool c.isArray).map _⟩ <|
    .cons ⟨rfl, fun _ => (reads_uint32 c.arrayDims).map _⟩ .nil
  commute := by simp [members]
  result := rfl

theorem reads_json (c : Column) : Reads record.read c.json c := c.holds_members.reads

end Column

namespace Parameter

def members (p : Parameter) : List (Member Parameter) :=
  [⟨"number", .number (.natural p.number.toNat), fun r => { r with number := p.number }⟩,
   ⟨"column", (p.column?.map Column.json).getD .null, fun r => { r with column? := p.column? }⟩]

theorem reads_column? (c? : Option Column) :
    Reads (readNullable Column.record.read) ((c?.map Column.json).getD .null) c? := by
  cases c? with
  | none => exact reads_null Column.record.read
  | some c => exact c.reads_json.nullable nofun

theorem holds_members (p : Parameter) : record.Holds p.members p where
  nodup := by decide
  members :=
    .cons ⟨rfl, fun _ => (reads_uint32 p.number).map _⟩ <|
    .cons ⟨rfl, fun _ => (reads_column? p.column?).map _⟩ .nil
  commute := by simp [members]
  result := rfl

theorem reads_json (p : Parameter) : Reads record.read p.json p := p.holds_members.reads

end Parameter

/-! ### Queries -/

namespace Query

def members (q : Query) : List (Member Query) :=
  [⟨"name", .string q.name, fun r => { r with name := q.name }⟩,
   ⟨"cmd", .string q.command.tag, fun r => { r with command := q.command }⟩,
   ⟨"text", .string q.text, fun r => { r with text := q.text }⟩,
   ⟨"filename", .string q.filename, fun r => { r with filename := q.filename }⟩,
   ⟨"params", .list (q.params.map Parameter.json), fun r => { r with params := q.params }⟩,
   ⟨"columns", .list (q.columns.map Column.json), fun r => { r with columns := q.columns }⟩]

theorem reads_command (c : Command) :
    Reads (readChoice Command.tag Command.all) (.string c.tag) c := by
  apply reads_choice
  cases c <;> decide

theorem holds_members (q : Query) : record.Holds q.members q where
  nodup := by decide
  members :=
    .cons ⟨rfl, fun _ => (reads_text q.name).map _⟩ <|
    .cons ⟨rfl, fun _ => (reads_command q.command).map _⟩ <|
    .cons ⟨rfl, fun _ => (reads_text q.text).map _⟩ <|
    .cons ⟨rfl, fun _ => (reads_text q.filename).map _⟩ <|
    .cons ⟨rfl, fun _ => (reads_list_map Parameter.reads_json q.params).map _⟩ <|
    .cons ⟨rfl, fun _ => (reads_list_map Column.reads_json q.columns).map _⟩ .nil
  commute := by simp [members]
  result := rfl

theorem reads_json (q : Query) : Reads record.read q.json q := q.holds_members.reads

end Query

/-! ### Requests -/

namespace Request

/-- Queries and the text of their settings as a value. -/
def json (queries : List Query) (settings : String) : Json.Value :=
  .object [("queries", .list (queries.map Query.json)), ("pluginOptions", .string settings)]

def members (queries : List Query) (settings : String) : List (Member Request) :=
  [⟨"queries", .list (queries.map Query.json), fun r => { r with queries := queries }⟩,
   ⟨"pluginOptions", .string settings, fun r => { r with settings := Text.utf8 settings }⟩]

theorem holds_members (queries : List Query) (settings : String) :
    record.Holds (members queries settings) ⟨queries, Text.utf8 settings⟩ where
  nodup := by decide
  members :=
    .cons ⟨rfl, fun _ => (reads_list_map Query.reads_json queries).map _⟩ <|
    .cons ⟨rfl, fun _ => ((reads_string settingsDepth settings).nullable nofun).map _⟩ .nil
  commute := by simp [members]
  result := rfl

theorem ofJson_json {queries : List Query} {settings : String} {document : Json.Value}
    (h : document.Reorders (json queries settings)) :
    ofJson (Text.utf8 document.text) = .ok ⟨queries, Text.utf8 settings⟩ :=
  (holds_members queries settings).reads.readAll h

/-- What is written: every field, and escapes where they have to be. -/
example : (json [.plain "A" .exec "SELECT \"\n" "q.sql"] "\x7b\x7d").text =
    "\x7b\"queries\":[\x7b\"name\":\"A\",\"cmd\":\":exec\",\"text\":\"SELECT \\\"\\n\"," ++
      "\"filename\":\"q.sql\",\"params\":[],\"columns\":[]\x7d]," ++
      "\"pluginOptions\":\"\x7b\x7d\"\x7d" := by
  decide +kernel

end Request

/-! ### Responses -/

namespace OutputFile

def members (f : OutputFile) : List (Member OutputFile) :=
  [⟨"name", .string f.name, fun r => { r with name := f.name }⟩,
   ⟨"contents", .list (f.contents.map fun b => .number (.natural b.toNat)),
      fun r => { r with contents := f.contents }⟩]

theorem holds_members (f : OutputFile) : record.Holds f.members f where
  nodup := by decide
  members :=
    .cons ⟨rfl, fun _ => (reads_text f.name).map _⟩ <|
    .cons ⟨rfl, fun _ => (reads_list_map reads_byte f.contents).map _⟩ .nil
  commute := by simp [members]
  result := rfl

theorem reads_json (f : OutputFile) : Reads record.read f.json f := f.holds_members.reads

end OutputFile

namespace Response

def members (r : Response) : List (Member Response) :=
  [⟨"files", .list (r.files.map OutputFile.json), fun s => { s with files := r.files }⟩]

theorem holds_members (r : Response) : record.Holds r.members r where
  nodup := by decide
  members := .cons ⟨rfl, fun _ => (reads_list_map OutputFile.reads_json r.files).map _⟩ .nil
  commute := by simp [members]
  result := rfl

theorem ofJson_json {r : Response} {document : Json.Value} (h : document.Reorders r.json) :
    ofJson (Text.utf8 document.text) = .ok r :=
  r.holds_members.reads.readAll h

end Response

/-! ### Both forms of a request -/

/-- **Queries, settings and responses come back from JSON**, whatever texts and numbers they
    hold and in whatever order the members of the objects stand. So a request whose settings
    are text is answered in the same way, whether it comes as a message or as JSON. -/
theorem json_round_trip :
    (∀ (queries : List Query) (settings : String) (document : Json.Value),
      document.Reorders (Request.json queries settings) →
        Request.ofJson (Text.utf8 document.text) = .ok ⟨queries, Text.utf8 settings⟩ ∧
        ∀ bs, Wire.decodeRequest bs = .ok ⟨queries, Text.utf8 settings⟩ →
          RequestFormat.json.respond (Text.utf8 document.text) =
            RequestFormat.message.respond bs) ∧
    ∀ (r : Response) (document : Json.Value), document.Reorders r.json →
      Response.ofJson (Text.utf8 document.text) = .ok r := by
  constructor
  · intro queries settings document hdocument
    have hjson := Request.ofJson_json hdocument
    refine ⟨hjson, ?_⟩
    intro bs hmessage
    rw [RequestFormat.respond, RequestFormat.respond, RequestFormat.decode,
      RequestFormat.decode, hjson, hmessage]
    rfl
  · intro r document hdocument
    exact Response.ofJson_json hdocument

/-- A query whose text has quotes and a line feed. -/
def quotedQuery : Query :=
  ⟨"ListIds", .many, "SELECT \"id\"\nFROM t", "ids.sql", [⟨1, none⟩], [.ofType "id" "int8"]⟩

/-- Settings that have quotes in a string themselves. -/
def pgSettings : String := "\x7b\"driver\":\"pg\"\x7d"

/-- The query and the settings as a message. -/
def quotedMessage : Wire.Request where
  queries := [⟨quotedQuery.text, "ListIds", ":many",
    [⟨"id", false, false, some ⟨"", "", "int8"⟩, 0⟩], [⟨1, none⟩], "ids.sql"⟩]
  version := ""
  settings := Text.utf8 pgSettings

/-- The query and the settings as JSON, the settings in front. -/
def quotedDocument : Json.Value :=
  .object [("pluginOptions", .string pgSettings), ("queries", .list [quotedQuery.json])]

theorem json_round_trip_quoted :
    quotedDocument.Reorders (Request.json [quotedQuery] pgSettings) ∧
      Wire.decodeRequest quotedMessage.encode = .ok ⟨[quotedQuery], Text.utf8 pgSettings⟩ ∧
      Request.ofJson (Text.utf8 quotedDocument.text) =
        .ok ⟨[quotedQuery], Text.utf8 pgSettings⟩ ∧
      RequestFormat.json.respond (Text.utf8 quotedDocument.text) =
        RequestFormat.message.respond quotedMessage.encode ∧
      ∀ r : Response, Response.ofJson (Text.utf8 r.json.text) = .ok r := by
  have hreorders : quotedDocument.Reorders (Request.json [quotedQuery] pgSettings) :=
    .object (.swap _ _ []) rfl (.cons (.refl _) (.cons (.refl _) .nil))
  have hlength : quotedMessage.encode.length < 2 ^ 64 := by decide +kernel
  have hdecode : Wire.Request.type.decode quotedMessage.encode = .ok quotedMessage :=
    (Wire.Request.builds_encode 96 quotedMessage hlength).decode_eq
  have hmessage : Wire.decodeRequest quotedMessage.encode =
      .ok ⟨[quotedQuery], Text.utf8 pgSettings⟩ := by
    rw [Wire.decodeRequest, hdecode]
    rfl
  obtain ⟨hjson, hrespond⟩ := json_round_trip.1 [quotedQuery] pgSettings quotedDocument hreorders
  exact ⟨hreorders, hmessage, hjson, hrespond _ hmessage,
    fun r => json_round_trip.2 r r.json (.refl r.json)⟩

end QueryClient
