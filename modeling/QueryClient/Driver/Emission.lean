/-
  QueryClient/Driver/Emission.lean
  ================================
  **What each driver makes of a query**: the imports and helper types at the top of a
  file, and the function for each command.
-/
import QueryClient.Driver.ColumnType
import QueryClient.Driver.QueryFunction

namespace QueryClient

open Script

/-! ### Wanted functions -/

/-- What a query function is to look like, apart from the driver: the query's own
    name, the function's name, the constant that holds the query text, the interface
    of its arguments with the fields bound to the placeholders, and, if the query has
    result columns, the interface of its rows. -/
structure FunctionPlan where
  queryName : String
  name : String
  queryConstant : String
  argsType? : Option String
  argNames : List String
  rowType? : Option String
  columnNames : List String
deriving DecidableEq, Repr

namespace FunctionPlan

def bound (p : FunctionPlan) : List String := p.argNames.map ("args." ++ ·)

def rowType (p : FunctionPlan) : TypeExpr :=
  match p.rowType? with
  | some name => .named name
  | none => .unit

def rowShape (p : FunctionPlan) : RowShape :=
  match p.rowType? with
  | some _ => .object p.columnNames
  | none => .nothing

end FunctionPlan

/-- A query asks for the id of the row just inserted, and the driver cannot tell
    it. -/
structure NoInsertedId where
  driver : Driver
  query : String
deriving DecidableEq, Repr

def NoInsertedId.message (e : NoInsertedId) : String :=
  "driver '" ++ e.driver.name ++ "' does not support " ++ Command.execLastId.tag ++
    " (query '" ++ e.query ++ "')"

namespace Driver

/-! ### Connections and calls -/

/-- The first parameter of every query function. -/
def connection : Driver → Field
  | .pg => .required "client" (.named "Client")
  | .postgres => .required "sql" (.named "Sql")
  | .mysql2 _ => .required "client" (.named "Client")
  | .betterSqlite3 _ => .required "database" (.named "Database")
  | .turso => .required "client" (.named "Client")

/-- The type of a MySQL reply that holds rows. -/
def rowPackets : TypeExpr := .array (.named "RowDataPacket")

/-- The type of a MySQL reply that holds no rows. -/
def resultHeader : TypeExpr := .named "ResultSetHeader"

/-- A query in array mode. -/
def pgCall (p : FunctionPlan) : ClientCall :=
  .settings "client.query" none "text" p.queryConstant "values" p.bound
    [⟨"rowMode", .quoted "array"⟩]

/-- A query with its text as it is; the accessor says what to read of the reply. -/
def postgresCall (p : FunctionPlan) (accessor : String) : TextCall :=
  ⟨"sql.unsafe", p.queryConstant, p.bound, accessor⟩

/-- A MySQL query, with rows as arrays where rows are read. -/
def mysqlCall (p : FunctionPlan) (yields : Option TypeExpr) (more : ObjectLiteral) : ClientCall :=
  .settings "client.query" yields "sql" p.queryConstant "values" p.bound more

/-- A MySQL query that reads rows. -/
def mysqlRows (p : FunctionPlan) : ClientCall :=
  mysqlCall p (some rowPackets) [⟨"rowsAsArray", .code "true"⟩]

/-- The statement that prepares an SQLite query. Rows can be asked for in array form
    only where the query returns some. -/
def prepare (safeIntegers : Bool) (p : FunctionPlan) (asArrays : Bool) : String :=
  "const stmt = database.prepare(" ++ p.queryConstant ++ ")" ++
    (if safeIntegers then ".safeIntegers(true)" else "") ++
    (if asArrays then ".raw(true)" else "") ++ ";"

/-- All rows of a prepared SQLite query. -/
def preparedRows (p : FunctionPlan) : ClientCall :=
  .prepared "stmt.all" p.bound (p.rowType?.map fun _ => .array (.array .any))

def tursoCall (p : FunctionPlan) : ClientCall :=
  .settings "client.execute" none "sql" p.queryConstant "args" p.bound []

/-! ### Functions -/

/-- A function around a body. -/
def wrap (d : Driver) (p : FunctionPlan) (returns : TypeExpr) (setup? : Option String)
    (body : QueryBody) : QueryFunction :=
  ⟨p.name, d.connection, p.argsType?, returns, setup?, body⟩

def execFunction (d : Driver) (p : FunctionPlan) : QueryFunction :=
  match d with
  | .pg => d.wrap p .unit none (.run (pgCall p))
  | .postgres => d.wrap p .unit none (.run (.text (postgresCall p "")))
  | .mysql2 _ => d.wrap p .unit none (.run (mysqlCall p none []))
  | .betterSqlite3 safe =>
    d.wrap p .unit (some (prepare safe p false)) (.run (.prepared "stmt.run" p.bound none))
  | .turso => d.wrap p .unit none (.run (tursoCall p))

def lastIdFunction (d : Driver) (p : FunctionPlan) : Except NoInsertedId QueryFunction :=
  match d with
  | .mysql2 _ =>
    .ok (d.wrap p .number none
      (.lastId (mysqlCall p (some resultHeader) []) "[result]" "result.insertId"))
  | .turso =>
    .ok (d.wrap p (TypeExpr.orNull .bigint) none
      (.lastId (tursoCall p) "result" "result.lastInsertRowid ?? null"))
  | _ => .error ⟨d, p.queryName⟩

def oneFunction (d : Driver) (p : FunctionPlan) : QueryFunction :=
  let returns := p.rowType.orNull
  match d with
  | .pg => d.wrap p returns none (.first (pgCall p) "result" "result.rows" p.rowShape)
  | .postgres =>
    d.wrap p returns none (.first (.text (postgresCall p ".values()")) "rows" "rows" p.rowShape)
  | .mysql2 _ => d.wrap p returns none (.first (mysqlRows p) "[rows]" "rows" p.rowShape)
  | .betterSqlite3 safe =>
    d.wrap p returns (some (prepare safe p p.rowType?.isSome))
      (.first (preparedRows p) "rows" "rows" p.rowShape)
  | .turso => d.wrap p returns none (.first (tursoCall p) "result" "result.rows" p.rowShape)

def manyFunction (d : Driver) (p : FunctionPlan) : QueryFunction :=
  let returns := .array p.rowType
  match d with
  | .pg => d.wrap p returns none (.every (pgCall p) "result" "result.rows" p.rowShape)
  | .postgres => d.wrap p returns none (.mapped (postgresCall p ".values()") p.rowShape)
  | .mysql2 _ => d.wrap p returns none (.every (mysqlRows p) "[rows]" "rows" p.rowShape)
  | .betterSqlite3 safe =>
    d.wrap p returns (some (prepare safe p p.rowType?.isSome))
      (.every (preparedRows p) "rows" "rows" p.rowShape)
  | .turso => d.wrap p returns none (.every (tursoCall p) "result" "result.rows" p.rowShape)

def queryFunction (d : Driver) (command : Command) (p : FunctionPlan) :
    Except NoInsertedId QueryFunction :=
  match command with
  | .exec => .ok (d.execFunction p)
  | .execLastId => d.lastIdFunction p
  | .one => .ok (d.oneFunction p)
  | .many => .ok (d.manyFunction p)

/-! ### Preambles -/

/-- Does some column of the queries have the interval type? -/
def mentionsInterval (d : Driver) (queries : List Query) : Bool :=
  queries.any fun q => q.allColumns.any fun c => c.type?.any fun t => d.normalize t == "interval"

/-- The declarations that the functions of a file share. -/
def preamble (d : Driver) (queries : List Query) : List Declaration :=
  match d with
  | .pg =>
    .imported (.ofNames "pg" ["QueryArrayConfig", "QueryArrayResult"]) ::
      (if d.mentionsInterval queries then
        [.imported (.ofNames "postgres-interval" ["IPostgresInterval"])] else []) ++
      [.interface ⟨"Client",
        [.required "query" (.named "(config: QueryArrayConfig) => Promise<QueryArrayResult>")],
        false⟩]
  | .postgres => [.imported (.ofNames "postgres" ["Sql"])]
  | .mysql2 _ =>
    [.imported ⟨"mysql2/promise", some "mysql",
      "RowDataPacket" ::
        (if queries.any (·.command == .execLastId) then ["ResultSetHeader"] else []), false⟩,
     .typeAlias ⟨"Client", .union [.named "mysql.Connection", .named "mysql.Pool"], false⟩]
  | .betterSqlite3 _ => [.imported (.ofNames "better-sqlite3" ["Database"])]
  | .turso => [.imported (.ofNames "@libsql/client" ["Client"])]

end Driver
end QueryClient
