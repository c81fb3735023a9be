/-
  QueryClient/Json/Value.lean
  ===========================
  **JSON values**, read without knowing what they are for, and written.

  Reading keeps the members of an object sorted by key, and of members with one key
  the last. Writing leaves no blanks, and escapes in strings only what has to be.
-/
import QueryClient.Json.Typed

namespace QueryClient.Json

/-- A JSON value. -/
inductive Value where
  | null
  | bool (b : Bool)
  | number (n : Number)
  | string (s : String)
  | list (items : List Value)
  | object (members : List (String × Value))
deriving Repr, Inhabited

/-! ### Reading -/

/-- Put a member in its place among sorted members; a member with the same key
    goes. -/
def insertMember (key : String) (v : Value) : List (String × Value) → List (String × Value)
  | [] => [(key, v)]
  | (k, w) :: ms =>
    if key = k then (key, v) :: ms
    else if key < k then (key, v) :: (k, w) :: ms
    else (k, w) :: insertMember key v ms

/-- The members of an object, given those read so far. Every turn but the last takes
    at least one byte. -/
def members (item : Reader Value) :
    (turns : Nat) → (first : Bool) → List (String × Value) → Reader (List (String × Value))
  | 0, _, _ => stop .endInObject
  | turns + 1, first, ms => do
    if ← moreMembers first then do
      let key ← readKey
      colon
      let v ← item
      members item turns false (insertMember key v ms)
    else do
      advance
      pure ms

/-- A value, given how the values inside a list or an object are read; nothing is given
    where no list and no object may stand. -/
def readValueWith (inner? : Option (Reader Value)) : Reader Value := do
  let b ← valueStart
  if b = 0x6E then do
    advance
    word restOfNull
    pure .null
  else if b = 0x74 then do
    advance
    word restOfTrue
    pure (.bool true)
  else if b = 0x66 then do
    advance
    word restOfFalse
    pure (.bool false)
  else if b = 0x22 then do
    advance
    let s ← stringRest
    pure (.string s)
  else if b = 0x2D then do
    advance
    let n ← numberRest true
    pure (.number n)
  else if isDigit b then do
    let n ← numberRest false
    pure (.number n)
  else if b = 0x5B ∨ b = 0x7B then
    match inner? with
    | none => stopAtNext .nestedTooDeeply
    | some inner => do
      advance
      if b = 0x5B then do
        let vs ← listRest inner
        pure (.list vs)
      else do
        let ms ← fun bs => members inner (bs.length + 1) true [] bs
        pure (.object ms)
  else stopAtNext .expectedValue

/-- A value in which lists and objects are nested at most `depth` deep. -/
def readValue : (depth : Nat) → Reader Value
  | 0 => readValueWith none
  | depth + 1 => readValueWith (some (readValue depth))

/-! ### Writing -/

/-- A character of a string. -/
def escaped (c : Char) : List Char :=
  if c = '"' ∨ c = '\\' then ['\\', c]
  else if c = '\n' then ['\\', 'n']
  else if c = '\r' then ['\\', 'r']
  else if c = '\t' then ['\\', 't']
  else if c = '\x08' then ['\\', 'b']
  else if c = '\x0c' then ['\\', 'f']
  else if c.toNat < 0x20 then
    ['\\', 'u', '0', '0', Nat.digitChar (c.toNat / 16), Nat.digitChar (c.toNat % 16)]
  else [c]

/-- A string in quotes. -/
def stringText (s : String) : String :=
  "\"" ++ String.ofList (s.toList.flatMap escaped) ++ "\""

namespace Value

mutual

def text : Value → String
  | .null => "null"
  | .bool b => if b then "true" else "false"
  | .number n => n.text
  | .string s => stringText s
  | .list vs => "[" ++ ",".intercalate (texts vs) ++ "]"
  | .object ms => "\x7b" ++ ",".intercalate (memberTexts ms) ++ "\x7d"

def texts : List Value → List String
  | [] => []
  | v :: vs => v.text :: texts vs

def memberTexts : List (String × Value) → List String
  | [] => []
  | (k, v) :: ms => (stringText k ++ ":" ++ v.text) :: memberTexts ms

end

/-- A text, or null. -/
def ofText? : Option String → Value
  | none => .null
  | some s => .string s

end Value
end QueryClient.Json
