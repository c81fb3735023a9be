/-
  QueryClient/Query.lean
  ======================
  **Analysed queries**: a named SQL text with the columns of its result and of the
  placeholders in it.
-/
import QueryClient.Command

namespace QueryClient

/-- A column of a result, or the column that a placeholder is compared with or stored
    in. The type is an SQL type name, perhaps with a schema in front. -/
structure Column where
  name? : Option String
  type? : Option String
  notNull : Bool
  isArray : Bool
  arrayDims : UInt32
deriving DecidableEq, Repr

namespace Column

/-- A column of which nothing is known. -/
def unknown : Column := ⟨none, none, false, false, 0⟩

/-- A column that may be null. -/
def ofType (name type : String) : Column := { unknown with name? := some name, type? := some type }

/-- The column as an array of so many dimensions. -/
def withArray (c : Column) (dims : UInt32) : Column := { c with isArray := true, arrayDims := dims }

/-- The column without nulls. -/
def withoutNull (c : Column) : Column := { c with notNull := true }

end Column

/-- A placeholder: its number in the SQL text, and its column if that is known. -/
structure Parameter where
  number : UInt32
  column? : Option Column
deriving DecidableEq, Repr

/-- A placeholder of which nothing is known. -/
def Parameter.unknown : Parameter := ⟨0, none⟩

/-- A query. `filename` is the source file that it was written in. -/
structure Query where
  name : String
  command : Command
  text : String
  filename : String
  params : List Parameter
  columns : List Column
deriving DecidableEq, Repr

namespace Query

/-- A query without placeholders and result columns. -/
def plain (name : String) (command : Command) (text filename : String) : Query :=
  ⟨name, command, text, filename, [], []⟩

/-- Add a placeholder; its number follows those before it. -/
def addParam (q : Query) (c : Column) : Query :=
  { q with params := q.params ++ [⟨UInt32.ofNat (q.params.length + 1), some c⟩] }

/-- Add a result column. -/
def addColumn (q : Query) (c : Column) : Query := { q with columns := q.columns ++ [c] }

/-- Every known column, those of the placeholders first. -/
def allColumns (q : Query) : List Column := q.params.filterMap (·.column?) ++ q.columns

end Query
end QueryClient
