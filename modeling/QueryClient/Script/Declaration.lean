/-
  QueryClient/Script/Declaration.lean
  ===================================
  **Declarations of the generated language**: what a file consists of at its top
  level. Each is plain data with a layout; nothing here knows about queries.
-/
import QueryClient.Script.TypeExpr
import QueryClient.Script.Literal

namespace QueryClient.Script

/-- A word followed by a space, if it applies. -/
def keyword (applies : Bool) (word : String) : String := if applies then word ++ " " else ""

/-! ### Imports and type aliases -/

/-- An import of a library: its default export, named exports, or, when neither is
    asked for, the library for its effects alone. -/
structure Import where
  library : String
  default? : Option String
  names : List String
  typesOnly : Bool
deriving DecidableEq, Repr

namespace Import

/-- An import of named exports. -/
def ofNames (library : String) (names : List String) : Import := ⟨library, none, names, false⟩

/-- The named exports in braces. -/
def nameList (names : List String) : String := "\x7b " ++ ", ".intercalate names ++ " \x7d"

/-- The import as a statement. -/
def text (i : Import) : String :=
  let source := "\"" ++ i.library ++ "\";"
  let head := "import " ++ keyword i.typesOnly "type"
  match i.default?, i.names with
  | some d, [] => head ++ d ++ " from " ++ source
  | some d, n :: ns => head ++ d ++ ", " ++ nameList (n :: ns) ++ " from " ++ source
  | none, n :: ns => head ++ nameList (n :: ns) ++ " from " ++ source
  | none, [] => "import " ++ source

end Import

/-- A name for a type. -/
structure TypeAlias where
  name : String
  type : TypeExpr
  exported : Bool
deriving Repr

/-- The alias as a statement. -/
def TypeAlias.text (a : TypeAlias) : String :=
  keyword a.exported "export" ++ "type " ++ a.name ++ " = " ++ a.type.text ++ ";"

/-! ### Interfaces -/

/-- A typed name: a field of an interface or a parameter of a function. -/
structure Field where
  name : String
  type : TypeExpr
  optional : Bool
deriving Repr

namespace Field

/-- A field that is always there. -/
def required (name : String) (type : TypeExpr) : Field := ⟨name, type, false⟩

/-- The field as source text; a question mark tells that it may be missing. -/
def text (f : Field) : String :=
  f.name ++ (if f.optional then "?" else "") ++ ": " ++ f.type.text

end Field

/-- A named object type. -/
structure Interface where
  name : String
  fields : List Field
  exported : Bool
deriving Repr

/-- The interface, a line for each field. -/
def Interface.layout (i : Interface) : Layout :=
  let head := keyword i.exported "export" ++ "interface " ++ i.name ++ " \x7b"
  if i.fields.isEmpty then .line (head ++ "\x7d")
  else .block head (i.fields.map fun f => .line (f.text ++ ";")) (some "\x7d")

/-! ### Constants -/

/-- What a constant is bound to: an expression given as source text, or a text. -/
inductive ConstantValue where
  | code (expression : String)
  | template (text : String)
deriving DecidableEq, Repr

def ConstantValue.source : ConstantValue → String
  | .code s => s
  | .template s => templateLiteral s

/-- A constant, with a type if it is annotated. -/
structure Constant where
  name : String
  value : ConstantValue
  type? : Option TypeExpr
  exported : Bool
deriving Repr

namespace Constant

/-- The type behind a name, or nothing. -/
def ascription : Option TypeExpr → String
  | none => ""
  | some t => ": " ++ t.text

/-- Cut a text at its line feeds: always at least one line, and as many more as there
    are line feeds. -/
def splitLines : List Char → List (List Char)
  | [] => [[]]
  | c :: cs =>
    if c = '\n' then [] :: splitLines cs
    else
      match splitLines cs with
      | [] => [[c]]
      | l :: ls => (c :: l) :: ls

/-- What stands before the value. -/
def head (c : Constant) : String :=
  keyword c.exported "export" ++ "const " ++ c.name ++ ascription c.type? ++ " = "

/-- The constant as a statement. Each line feed of the value starts a line of its
    own. -/
def layout (c : Constant) : List Layout :=
  match splitLines (c.value.source ++ ";").toList with
  | [] => []
  | l :: ls => .line (c.head ++ String.ofList l) :: ls.map fun l => .line (String.ofList l)

end Constant

/-! ### Functions -/

structure Function where
  name : String
  params : List Field
  returns? : Option TypeExpr
  body : List Layout
  isAsync : Bool
  exported : Bool
deriving Repr

namespace Function

/-- The line that opens the function. -/
def signature (f : Function) : String :=
  keyword f.exported "export" ++ keyword f.isAsync "async" ++ "function " ++ f.name ++ "(" ++
    ", ".intercalate (f.params.map Field.text) ++ ")" ++ Constant.ascription f.returns? ++ " \x7b"

/-- The function, its body set one level deeper. -/
def layout (f : Function) : Layout := .block f.signature f.body (some "\x7d")

end Function

/-! ### Declarations -/

/-- A declaration at the top level of a file. -/
inductive Declaration where
  | imported (i : Import)
  | typeAlias (a : TypeAlias)
  | interface (i : Interface)
  | constant (c : Constant)
  | function (f : Function)
deriving Repr

namespace Declaration

def layout : Declaration → List Layout
  | .imported i => [.line i.text]
  | .typeAlias a => [.line a.text]
  | .interface i => [i.layout]
  | .constant c => c.layout
  | .function f => [f.layout]

def text (d : Declaration) : String := Layout.render d.layout

end Declaration
end QueryClient.Script
