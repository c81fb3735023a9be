/-
  QueryClient/Script/Literal.lean
  ===============================
  **Literals of the generated language**: template, array and object literals.

  A template literal stands between backticks and shows its characters as they are,
  line feeds included. Three things would mean something else inside it and get a
  backslash: the backslash, the backtick, and a dollar sign before an opening brace.
-/
import QueryClient.Script.Layout

namespace QueryClient.Script

/-! ### Template literals -/

/-- Mark the characters that would not stand for themselves in a template
    literal. -/
def escapeTemplate : List Char → List Char
  | [] => []
  | c :: cs =>
    if c = '\\' ∨ c = '`' then '\\' :: c :: escapeTemplate cs
    else if c = '$' ∧ cs.head? = some '\x7b' then '\\' :: c :: escapeTemplate cs
    else c :: escapeTemplate cs

def templateLiteral (text : String) : String :=
  "`" ++ String.ofList (escapeTemplate text.toList) ++ "`"

/-! ### Array literals -/

/-- An item of an array literal: a text in quotes, or an expression. -/
inductive Item where
  | quoted (text : String)
  | code (expression : String)
deriving DecidableEq, Repr

def Item.text : Item → String
  | .quoted s => "\"" ++ s ++ "\""
  | .code s => s

/-- The items, separated by commas. -/
def commaList (items : List Item) : String := ", ".intercalate (items.map Item.text)

/-- The items in brackets. -/
def arrayLiteral (items : List Item) : String := "[" ++ commaList items ++ "]"

/-! ### Object literals -/

inductive PropertyValue where
  | quoted (text : String)
  | code (expression : String)
  | array (items : List Item)
deriving DecidableEq, Repr

def PropertyValue.text : PropertyValue → String
  | .quoted s => "\"" ++ s ++ "\""
  | .code s => s
  | .array items => arrayLiteral items

/-- One property of an object literal. -/
structure Property where
  key : String
  value : PropertyValue
deriving DecidableEq, Repr

/-- The line of a property; every property ends with a comma. -/
def Property.text (p : Property) : String := p.key ++ ": " ++ p.value.text ++ ","

/-- An object literal, property by property. -/
abbrev ObjectLiteral := List Property

/-- An object literal inside the code around it. An empty one shares the line with
    that code, any other one has a line for each property. -/
def ObjectLiteral.layout (before : String) (object : ObjectLiteral) (after : String) : Layout :=
  if object.isEmpty then .line (before ++ "\x7b\x7d" ++ after)
  else .block (before ++ "\x7b") (object.map fun p => .line p.text) (some ("\x7d" ++ after))

end QueryClient.Script
