/-
  QueryClient/Generation.lean
  ===========================
  **From queries to files.** Queries are grouped by the source file that they were
  written in, and every group becomes one file: the driver's preamble, then the
  declarations of each query. A file depends on the queries of its own group only.

  A run generates all files or none: settings that select no driver spoil it, and so
  does a query that the driver cannot generate.
-/
import QueryClient.Driver.Emission
import QueryClient.Fault
import QueryClient.Naming.Supply
import QueryClient.Request
import QueryClient.Script.SourceFile

namespace QueryClient

open Script

/-! ### One query -/

/-- The declarations of a query: the constant that holds its text, the interface of
    its arguments if it has placeholders, the interface of its rows if it has result
    columns, and the function that runs it. -/
structure QueryDeclarations where
  constant : Constant
  args? : Option Interface
  row? : Option Interface
  function : QueryFunction
deriving Repr

namespace QueryDeclarations

/-- The declarations in the order of the file. -/
def toList (q : QueryDeclarations) : List Declaration :=
  .constant q.constant :: (q.args?.map .interface).toList ++ (q.row?.map .interface).toList ++
    [.function q.function.function]

end QueryDeclarations

namespace Query

/-- The text sent to the database: an annotation that names the query, and the
    query. -/
def annotatedText (q : Query) : String :=
  "-- name: " ++ q.name ++ " " ++ q.command.tag ++ "\n" ++ q.text

/-- The constant that holds the text of the query. -/
def constantName (q : Query) : String := Naming.functionName q.name ++ "Query"

def argsName (q : Query) : String := Naming.typeName q.name ++ "Args"

def rowName (q : Query) : String := Naming.typeName q.name ++ "Row"

/-- The fields of the arguments, in the order of the placeholders. -/
def argFields (q : Query) : List String :=
  Naming.fieldNames "arg" (q.params.map fun p => p.column?.bind (·.name?))

/-- The fields of a row, in the order of the columns. -/
def rowFields (q : Query) : List String := Naming.fieldNames "col" (q.columns.map (·.name?))

/-- The interface of the arguments, if there are any. -/
def argsInterface? (d : Driver) (q : Query) : Option Interface :=
  if q.params.isEmpty then none
  else some ⟨q.argsName,
    List.zipWith (fun name p => Field.required name (d.columnType p.column?)) q.argFields q.params,
    true⟩

/-- The interface of the rows, if the result has columns. -/
def rowInterface? (d : Driver) (q : Query) : Option Interface :=
  if q.columns.isEmpty then none
  else some ⟨q.rowName,
    List.zipWith (fun name c => Field.required name (d.columnType (some c))) q.rowFields q.columns,
    true⟩

/-- What the function of the query is to look like. -/
def plan (q : Query) : FunctionPlan where
  queryName := q.name
  name := Naming.functionName q.name
  queryConstant := q.constantName
  argsType? := if q.params.isEmpty then none else some q.argsName
  argNames := q.argFields
  rowType? := if q.columns.isEmpty then none else some q.rowName
  columnNames := q.rowFields

def declarations (d : Driver) (q : Query) : Except NoInsertedId QueryDeclarations :=
  (d.queryFunction q.command q.plan).map fun function =>
    ⟨⟨q.constantName, .template q.annotatedText, none, true⟩, q.argsInterface? d, q.rowInterface? d,
      function⟩

end Query

/-! ### One file -/

/-- The first line of every generated file. -/
def banner : String := "// Code generated by sqlc. DO NOT EDIT."

/-- The queries of one source file. -/
structure QueryGroup where
  filename : String
  queries : List Query
deriving DecidableEq, Repr

namespace QueryGroup

/-- Put a query behind the others of its source file. A source file that has no group
    yet gets one, behind all others. -/
def insert : List QueryGroup → Query → List QueryGroup
  | [], q => [⟨q.filename, [q]⟩]
  | g :: gs, q =>
    if g.filename = q.filename then ⟨g.filename, g.queries ++ [q]⟩ :: gs else g :: insert gs q

/-- Queries by source file: each query goes to the group of its source file. -/
def ofQueries (queries : List Query) : List QueryGroup := queries.foldl insert []

end QueryGroup

namespace Driver

def fileDeclarations (d : Driver) (queries : List Query) :
    Except NoInsertedId (List Declaration) :=
  (queries.mapM (Query.declarations d)).map fun ds => d.preamble queries ++ ds.flatMap (·.toList)

def outputName (filename : String) : String := Naming.fileStem filename ++ ".ts"

def file (d : Driver) (g : QueryGroup) : Except NoInsertedId OutputFile :=
  (d.fileDeclarations g.queries).map fun ds =>
    ⟨outputName g.filename, Text.utf8 (SourceFile.text ⟨some banner, ds⟩)⟩

/-- The files generated from queries, one for each source file. -/
def generate (d : Driver) (queries : List Query) : Except NoInsertedId Response :=
  ((QueryGroup.ofQueries queries).mapM d.file).map (⟨·⟩)

end Driver

/-! ### One run -/

namespace Settings

/-- The driver selected by settings that are still to be read. -/
def selectDriver (bs : Bytes) : Except Fault Driver :=
  match parse bs with
  | .error f => .error (.settings f)
  | .ok s => s.driver.mapError .selection

end Settings

def Request.generate (r : Request) : Except Fault Response :=
  match Settings.selectDriver r.settings with
  | .error f => .error f
  | .ok d => (d.generate r.queries).mapError .noInsertedId

end QueryClient
