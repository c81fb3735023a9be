/-
  QueryClient/Driver/ColumnType.lean
  ==================================
  **The type that a column has in generated code.** Each driver has a table from SQL
  type names to types, and a type for the names that are not in it; arrays and nulls
  are added around what the table says.

  The schema before the last dot and the case of the letters do not matter. The
  embedded drivers also ignore white space, so that `UNSIGNED BIG INT` is one name.
-/
import QueryClient.Driver.Basic
import QueryClient.Query
import QueryClient.Script.TypeExpr
import QueryClient.Text.Blank
import QueryClient.Text.Case

namespace QueryClient

open Script (TypeExpr)

/-! ### Tables -/

/-- Rows of type names that share a type. -/
abbrev TypeTable := List (List String × TypeExpr)

def TypeTable.lookup (t : TypeTable) (name : String) : Option TypeExpr :=
  (t.find? (·.1.contains name)).map (·.2)

namespace Driver

/-- What both PostgreSQL libraries hand back alike. Integers that do not fit a double
    come as texts. -/
def postgresTypes : TypeTable :=
  [(["bool"], .boolean),
   (["bytea"], .named "Buffer"),
   (["date", "timestamp", "timestamptz"], .named "Date"),
   (["float4", "float8", "int2", "int4", "oid", "serial", "serial2", "serial4", "smallserial"],
    .number),
   (["json", "jsonb"], .any),
   (["aclitem", "bigserial", "bit", "box", "bpchar", "cid", "cidr", "inet", "int8", "line", "lseg",
     "macaddr", "macaddr8", "money", "numeric", "path", "pg_node_tree", "pg_snapshot", "polygon",
     "regproc", "regrole", "serial8", "text", "tid", "tsquery", "tsvector", "txid_snapshot", "uuid",
     "varbit", "varchar", "xid", "xml"], .string)]

/-- What the first PostgreSQL library turns into objects. -/
def pgTypes : TypeTable :=
  [(["time", "timetz"], .named "Date"),
   (["interval"], .named "IPostgresInterval"),
   (["point"], .object [("x", .number), ("y", .number)]),
   (["circle"], .object [("x", .number), ("y", .number), ("radius", .number)])]

/-- The same types in the other library. -/
def postgresTextTypes : TypeTable :=
  [(["time", "timetz", "interval", "point", "circle"], .string)]

/-- The type of large integers from a MySQL connection. -/
def bigintType (o : BigNumbers) : TypeExpr :=
  match o.supported, o.asStrings with
  | true, true => .string
  | true, false => .union [.number, .string]
  | false, _ => .number

/-- The types of MySQL columns. -/
def mysqlTypes (o : BigNumbers) : TypeTable :=
  [(["bigint"], bigintType o),
   (["binary", "bit", "blob", "longblob", "mediumblob", "tinyblob", "varbinary"], .named "Buffer"),
   (["date", "datetime", "timestamp"], .named "Date"),
   (["double", "float", "int", "mediumint", "smallint", "tinyint", "year"], .number),
   (["json"], .any),
   (["char", "decimal", "longtext", "mediumtext", "text", "time", "tinytext", "varchar"], .string)]

/-- The types of SQLite columns, given the type of integers. -/
def sqliteTypes (integer : TypeExpr) : TypeTable :=
  [(["int", "integer", "tinyint", "smallint", "mediumint", "bigint", "unsignedbigint", "int2",
     "int8"], integer),
   (["blob"], .named "Buffer"),
   (["real", "double", "doubleprecision", "float"], .number),
   (["boolean", "bool"], .boolean),
   (["date", "datetime", "timestamp"], .named "Date")]

def types : Driver → TypeTable
  | .pg => postgresTypes ++ pgTypes
  | .postgres => postgresTypes ++ postgresTextTypes
  | .mysql2 o => mysqlTypes o
  | .betterSqlite3 safeIntegers => sqliteTypes (if safeIntegers then .bigint else .number)
  | .turso => sqliteTypes .number

/-- The type of a name that is not in the table. -/
def fallbackType (d : Driver) : TypeExpr := if d.isEmbedded then .any else .string

/-! ### Names -/

/-- What follows the last dot, and all of a name without dots. -/
def afterLastDot (s : List Char) : List Char := (s.reverse.takeWhile (· ≠ '.')).reverse

/-- A type name as the driver's table lists it. -/
def normalize (d : Driver) (type : String) : String :=
  let bare := afterLastDot type.toList
  if d.isEmbedded then String.ofList ((bare.filter fun c => !Text.isBlank c).flatMap Text.lower)
  else String.ofList (Text.asciiLower bare)

/-- The type of a value of the named SQL type. -/
def baseType (d : Driver) (type : String) : TypeExpr :=
  (d.types.lookup (d.normalize type)).getD d.fallbackType

/-! ### Columns -/

/-- How many array layers a column has: the declared dimensions, and one if it is
    called an array without any. -/
def arrayLayers (c : Column) : Nat :=
  if c.isArray ∨ 0 < c.arrayDims then max c.arrayDims.toNat 1 else 0

/-- The type of a column; a column without a type may hold anything. -/
def columnType (d : Driver) (column : Option Column) : TypeExpr :=
  match column with
  | none => .any
  | some c =>
    match c.type? with
    | none => .any
    | some type =>
      let t := TypeExpr.arrays (arrayLayers c) (d.baseType type)
      if c.notNull then t else t.orNull

end Driver
end QueryClient
