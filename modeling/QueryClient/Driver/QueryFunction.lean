/-
  QueryClient/Driver/QueryFunction.lean
  =====================================
  **The function that runs a query.** Its body is described before it is written:
  which call of the client library it makes, which values the call binds to the
  placeholders, and what it makes of the reply. Writing the description down is the
  same for every driver; what differs between drivers is the description.

  Rows come as arrays, and a result object reads them by position, so that two
  columns of one name do not hide each other.
-/
import QueryClient.Driver.Basic
import QueryClient.Query
import QueryClient.Script.Declaration

namespace QueryClient

open Script

/-! ### Calls -/

/-- An expression as source text, around at most one object literal. -/
inductive Expression where
  | inline (text : String)
  | around (before : String) (object : ObjectLiteral) (after : String)
deriving DecidableEq, Repr

namespace Expression

/-- The expression as a statement, with source text before and after it. -/
def layout (before : String) (e : Expression) (after : String) : Layout :=
  match e with
  | .inline s => .line (before ++ s ++ after)
  | .around b object a => object.layout (before ++ b) (a ++ after)

end Expression

/-- A call that takes the query text and an array of values; `accessor` follows the
    call. -/
structure TextCall where
  callee : String
  query : String
  bound : List String
  accessor : String
deriving DecidableEq, Repr

def TextCall.text (c : TextCall) : String :=
  c.callee ++ "(" ++ c.query ++ ", " ++ arrayLiteral (c.bound.map .code) ++ ")" ++ c.accessor

/-- A call of a client library. `bound` are the expressions bound to the placeholders,
    in order; `yields` is the type that the library is told to hand back.

    - `settings`: everything is in one object, the query text and the values under
      the given keys, and further properties after them;
    - `text`: the query text and the array of values are arguments;
    - `prepared`: the query text has been prepared before, each value is an
      argument. -/
inductive ClientCall where
  | settings (callee : String) (yields : Option TypeExpr) (queryKey query valuesKey : String)
      (bound : List String) (more : ObjectLiteral)
  | text (call : TextCall)
  | prepared (callee : String) (bound : List String) (yields : Option TypeExpr)
deriving Repr

namespace ClientCall

/-- The type that the library is told to hand back. -/
def yields : ClientCall → Option TypeExpr
  | .settings _ yields _ _ _ _ _ => yields
  | .text _ => none
  | .prepared _ _ yields => yields

def expression : ClientCall → Expression
  | .settings callee yields queryKey query valuesKey bound more =>
    let typeArgument := match yields with
      | none => ""
      | some t => "<" ++ t.text ++ ">"
    .around (callee ++ typeArgument ++ "(")
      (⟨queryKey, .code query⟩ :: ⟨valuesKey, .array (bound.map .code)⟩ :: more) ")"
  | .text c => .inline c.text
  | .prepared callee bound yields =>
    let cast := match yields with
      | none => ""
      | some t => " as " ++ t.text
    .inline (callee ++ "(" ++ commaList (bound.map .code) ++ ")" ++ cast)

end ClientCall

/-! ### Rows -/

/-- What becomes of a row: an object with the given fields, or nothing. -/
inductive RowShape where
  | object (fields : List String)
  | nothing
deriving DecidableEq, Repr

/-- The properties of a row object, from position `i` on. -/
def positionsFrom : (i : Nat) → List String → ObjectLiteral
  | _, [] => []
  | i, f :: fs => ⟨f, .code ("row[" ++ i.repr ++ "]")⟩ :: positionsFrom (i + 1) fs

/-- The object that a row becomes: each field reads its position. -/
def positionalRow (fields : List String) : ObjectLiteral := positionsFrom 0 fields

/-! ### Bodies -/

/-- The body of a query function.

    - `run`: make the call and wait for it;
    - `lastId`: make the call, bind the reply, and return an expression on it;
    - `first`: bind the reply, and return the row if there is exactly one;
    - `every`: bind the reply, and return all rows;
    - `mapped`: return all rows of a reply that is not bound first. -/
inductive QueryBody where
  | run (call : ClientCall)
  | lastId (call : ClientCall) (binding result : String)
  | first (call : ClientCall) (binding rows : String) (row : RowShape)
  | every (call : ClientCall) (binding rows : String) (row : RowShape)
  | mapped (call : TextCall) (row : RowShape)
deriving Repr

namespace QueryBody

def call : QueryBody → ClientCall
  | .run c => c
  | .lastId c _ _ => c
  | .first c _ _ _ => c
  | .every c _ _ _ => c
  | .mapped c _ => .text c

/-- Make a call and bind its reply. -/
def bind (binding : String) (c : ClientCall) : Layout :=
  c.expression.layout ("const " ++ binding ++ " = await ") ";"

/-- Return null unless there is exactly one row. -/
def guard (rows : String) : Layout :=
  .block ("if (" ++ rows ++ ".length !== 1) \x7b") [.line "return null;"] (some "\x7d")

/-- Return every row of a source expression as nothing. -/
def mapToNothing (rows : String) : Layout := .line ("return " ++ rows ++ ".map(() => undefined);")

def layout : QueryBody → List Layout
  | .run c => [c.expression.layout "await " ";"]
  | .lastId c binding result => [bind binding c, .line ("return " ++ result ++ ";")]
  | .first c binding rows row =>
    bind binding c :: guard rows ::
      match row with
      | .object fields =>
        [.line ("const row = " ++ rows ++ "[0];"), (positionalRow fields).layout "return " ";"]
      | .nothing => [.line "return;"]
  | .every c binding rows row =>
    bind binding c ::
      match row with
      | .object fields =>
        [.block ("return " ++ rows ++ ".map(row => \x7b")
          [(positionalRow fields).layout "return " ";"] (some "\x7d);")]
      | .nothing => [mapToNothing rows]
  | .mapped c row =>
    let rows := "(await " ++ c.text ++ ")"
    match row with
    | .object fields => [(positionalRow fields).layout ("return " ++ rows ++ ".map(row => (") "));"]
    | .nothing => [mapToNothing rows]

end QueryBody

/-! ### Functions -/

/-- A query function. `argsType?` is the interface of its arguments, if it takes any;
    `setup?` is a statement before the call. -/
structure QueryFunction where
  name : String
  connection : Field
  argsType? : Option String
  returns : TypeExpr
  setup? : Option String
  body : QueryBody
deriving Repr

namespace QueryFunction

/-- The parameters: the connection, and the arguments if there are any. -/
def params (f : QueryFunction) : List Field :=
  f.connection :: (f.argsType?.map fun t => Field.required "args" (.named t)).toList

/-- The function as a declaration of the generated language. -/
def function (f : QueryFunction) : Function where
  name := f.name
  params := f.params
  returns? := some (.generic "Promise" [f.returns])
  body := (f.setup?.map Layout.line).toList ++ f.body.layout
  isAsync := true
  exported := true

end QueryFunction
end QueryClient
