/-
  QueryClient/Script/TypeExpr.lean
  ================================
  **Type expressions of the generated language**, and their text.

  In the text a union binds weakest and the array brackets bind tightest, so an
  element type that is a union or may be null is put in parentheses; no other
  operand needs them.
-/

namespace QueryClient.Script

/-- The types that the language has built in. -/
inductive Primitive where
  | string
  | number
  | bigint
  | boolean
  | any
deriving DecidableEq, Repr

def Primitive.text : Primitive → String
  | .string => "string"
  | .number => "number"
  | .bigint => "bigint"
  | .boolean => "boolean"
  | .any => "any"

/-- A type expression. `named` stands for a type that the file imports, declares or
    finds in its library; `object` lists the fields of an anonymous object type. -/
inductive TypeExpr where
  | primitive (p : Primitive)
  | nullable (inner : TypeExpr)
  | array (element : TypeExpr)
  | named (name : String)
  | generic (base : String) (args : List TypeExpr)
  | object (fields : List (String × TypeExpr))
  | union (alternatives : List TypeExpr)
  | unit
deriving Repr, Inhabited

namespace TypeExpr

/-! ### Common types -/

def string : TypeExpr := .primitive .string

/-- The type of double-precision numbers. -/
def number : TypeExpr := .primitive .number

/-- The type of integers of any size. -/
def bigint : TypeExpr := .primitive .bigint

def boolean : TypeExpr := .primitive .boolean

/-- The type that admits every value. -/
def any : TypeExpr := .primitive .any

/-! ### Wrapping and asking -/

/-- The type with null added, unless it admits null already. -/
def orNull : TypeExpr → TypeExpr
  | .nullable t => .nullable t
  | t => .nullable t

/-- `n` array layers around a type. -/
def arrays : Nat → TypeExpr → TypeExpr
  | 0, t => t
  | n + 1, t => .array (arrays n t)

/-- Does the type admit null at the top level? -/
def isNullable : TypeExpr → Bool
  | .nullable _ => true
  | _ => false

/-- Does the type need parentheses as an array element? -/
def isCompound : TypeExpr → Bool
  | .nullable _ => true
  | .union _ => true
  | _ => false

/-- The number of array layers around the innermost type, looking through every
    `nullable` on the way. -/
def arrayDepth : TypeExpr → Nat
  | .nullable t => t.arrayDepth
  | .array t => t.arrayDepth + 1
  | _ => 0

/-! ### Text -/

mutual

def text : TypeExpr → String
  | .primitive p => p.text
  | .nullable t => t.text ++ " | null"
  | .array t => if t.isCompound then "(" ++ t.text ++ ")[]" else t.text ++ "[]"
  | .named name => name
  | .generic base [] => base
  | .generic base (a :: as) => base ++ "<" ++ ", ".intercalate (texts (a :: as)) ++ ">"
  | .object [] => "\x7b\x7d"
  | .object (f :: fs) => "\x7b " ++ "; ".intercalate (fieldTexts (f :: fs)) ++ " \x7d"
  | .union ts => " | ".intercalate (texts ts)
  | .unit => "void"

def texts : List TypeExpr → List String
  | [] => []
  | t :: ts => t.text :: texts ts

def fieldTexts : List (String × TypeExpr) → List String
  | [] => []
  | (name, t) :: fs => (name ++ ": " ++ t.text) :: fieldTexts fs

end

end TypeExpr
end QueryClient.Script
