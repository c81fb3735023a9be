/-
  QueryClient/Wire/Message.lean
  =============================
  **The messages between the analyser and the generator.** Only the fields that the
  generator reads are declared; all others are passed over. Each message has a table
  of its fields for reading, its bytes, and its size.
-/
import QueryClient.Wire.Field

namespace QueryClient.Wire

/-! ### Files -/

structure File where
  name : String
  contents : Bytes
deriving DecidableEq, Repr

namespace File

def type : MessageType File where
  name := "File"
  empty := ⟨"", []⟩
  field? _ number :=
    match number with
    | 1 => some (.plain "name" readText fun m v => { m with name := v })
    | 2 => some (.plain "contents" readDelimited fun m v => { m with contents := v })
    | _ => none

def encode (m : File) : Bytes := textField 1 m.name ++ bytesField 2 m.contents

def size (m : File) : Nat := textFieldSize 1 m.name + bytesFieldSize 2 m.contents

end File

/-! ### Type names -/

/-- The name of an SQL type, qualified. -/
structure Identifier where
  catalog : String
  schema : String
  name : String
deriving DecidableEq, Repr

namespace Identifier

def type : MessageType Identifier where
  name := "Identifier"
  empty := ⟨"", "", ""⟩
  field? _ number :=
    match number with
    | 1 => some (.plain "catalog" readText fun m v => { m with catalog := v })
    | 2 => some (.plain "schema" readText fun m v => { m with schema := v })
    | 3 => some (.plain "name" readText fun m v => { m with name := v })
    | _ => none

def encode (m : Identifier) : Bytes :=
  textField 1 m.catalog ++ textField 2 m.schema ++ textField 3 m.name

def size (m : Identifier) : Nat :=
  textFieldSize 1 m.catalog + textFieldSize 2 m.schema + textFieldSize 3 m.name

end Identifier

/-! ### Columns -/

structure Column where
  name : String
  notNull : Bool
  isArray : Bool
  type? : Option Identifier
  arrayDims : Int32
deriving DecidableEq, Repr

namespace Column

def type : MessageType Column where
  name := "WireColumn"
  empty := ⟨"", false, false, none, 0⟩
  field? depth number :=
    match number with
    | 1 => some (.plain "name" readText fun m v => { m with name := v })
    | 3 => some (.plain "not_null" readBool fun m v => { m with notNull := v })
    | 4 => some (.plain "is_array" readBool fun m v => { m with isArray := v })
    | 12 => some (.nested "r#type" Identifier.type depth (·.type?)
        fun m v => { m with type? := some v })
    | 17 => some (.plain "array_dims" readInt32 fun m v => { m with arrayDims := v })
    | _ => none

def encode (m : Column) : Bytes :=
  textField 1 m.name ++ boolField 3 m.notNull ++ boolField 4 m.isArray ++
    (m.type?.elim [] fun i => delimited 12 i.encode) ++ int32Field 17 m.arrayDims

def size (m : Column) : Nat :=
  textFieldSize 1 m.name + boolFieldSize 3 m.notNull + boolFieldSize 4 m.isArray +
    (m.type?.elim 0 fun i => delimitedSize 12 i.size) + int32FieldSize 17 m.arrayDims

end Column

/-! ### Placeholders -/

structure Parameter where
  number : Int32
  column? : Option Column
deriving DecidableEq, Repr

namespace Parameter

def type : MessageType Parameter where
  name := "WireParameter"
  empty := ⟨0, none⟩
  field? depth number :=
    match number with
    | 1 => some (.plain "number" readInt32 fun m v => { m with number := v })
    | 2 => some (.nested "column" Column.type depth (·.column?)
        fun m v => { m with column? := some v })
    | _ => none

def encode (m : Parameter) : Bytes :=
  int32Field 1 m.number ++ (m.column?.elim [] fun c => delimited 2 c.encode)

def size (m : Parameter) : Nat :=
  int32FieldSize 1 m.number + (m.column?.elim 0 fun c => delimitedSize 2 c.size)

end Parameter

/-! ### Queries -/

structure Query where
  text : String
  name : String
  command : String
  columns : List Column
  params : List Parameter
  filename : String
deriving DecidableEq, Repr

namespace Query

def type : MessageType Query where
  name := "WireQuery"
  empty := ⟨"", "", "", [], [], ""⟩
  field? depth number :=
    match number with
    | 1 => some (.plain "text" readText fun m v => { m with text := v })
    | 2 => some (.plain "name" readText fun m v => { m with name := v })
    | 3 => some (.plain "cmd" readText fun m v => { m with command := v })
    | 4 => some (.repeated "columns" Column.type depth
        fun m v => { m with columns := m.columns ++ [v] })
    | 5 => some (.repeated "params" Parameter.type depth
        fun m v => { m with params := m.params ++ [v] })
    | 7 => some (.plain "filename" readText fun m v => { m with filename := v })
    | _ => none

def encode (m : Query) : Bytes :=
  textField 1 m.text ++ textField 2 m.name ++ textField 3 m.command ++
    repeatedField 4 (m.columns.map Column.encode) ++
    repeatedField 5 (m.params.map Parameter.encode) ++ textField 7 m.filename

def size (m : Query) : Nat :=
  textFieldSize 1 m.text + textFieldSize 2 m.name + textFieldSize 3 m.command +
    repeatedFieldSize 4 (m.columns.map Column.size) +
    repeatedFieldSize 5 (m.params.map Parameter.size) + textFieldSize 7 m.filename

end Query

/-! ### Requests and responses -/

structure Request where
  queries : List Query
  version : String
  settings : Bytes
deriving DecidableEq, Repr

namespace Request

def type : MessageType Request where
  name := "WireGenerateRequest"
  empty := ⟨[], "", []⟩
  field? depth number :=
    match number with
    | 3 => some (.repeated "queries" Query.type depth
        fun m v => { m with queries := m.queries ++ [v] })
    | 4 => some (.plain "sqlc_version" readText fun m v => { m with version := v })
    | 5 => some (.plain "plugin_options" readDelimited fun m v => { m with settings := v })
    | _ => none

def encode (m : Request) : Bytes :=
  repeatedField 3 (m.queries.map Query.encode) ++ textField 4 m.version ++
    bytesField 5 m.settings

def size (m : Request) : Nat :=
  repeatedFieldSize 3 (m.queries.map Query.size) + textFieldSize 4 m.version +
    bytesFieldSize 5 m.settings

end Request

structure Response where
  files : List File
deriving DecidableEq, Repr

namespace Response

def type : MessageType Response where
  name := "WireGenerateResponse"
  empty := ⟨[]⟩
  field? depth number :=
    match number with
    | 1 => some (.repeated "files" File.type depth fun m v => { m with files := m.files ++ [v] })
    | _ => none

def encode (m : Response) : Bytes := repeatedField 1 (m.files.map File.encode)

def size (m : Response) : Nat := repeatedFieldSize 1 (m.files.map File.size)

end Response
end QueryClient.Wire
