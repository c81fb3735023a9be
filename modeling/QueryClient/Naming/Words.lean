/-
  QueryClient/Naming/Words.lean
  =============================
  **Word shapes**: how the letters of a declared name are recast, and how any text
  is turned into an identifier.

  Everything here works on lists of characters; a first letter is recast by the full
  Unicode mapping, which may lengthen it, and all else looks at ASCII letters only.
-/
import QueryClient.Text.Case

namespace QueryClient.Naming

/-! ### Recasting letters -/

/-- The name with a small first letter. -/
def lowerFirst : List Char → List Char
  | [] => []
  | c :: cs => Text.lower c ++ cs

/-- The underscore-separated parts run together, each with a capital first letter;
    `first` tells whether a part begins here. -/
def pascalFrom : Bool → List Char → List Char
  | _, [] => []
  | first, c :: cs =>
    if c = '_' then pascalFrom true cs
    else (if first then Text.upper c else [c]) ++ pascalFrom false cs

/-- The underscore-separated parts run together, each with a capital first letter. -/
def pascalCase (s : List Char) : List Char := pascalFrom true s

/-- Each underscore before a small ASCII letter goes, and the letter becomes a
    capital. Read from left to right, so that of two underscores the first stays. -/
def foldUnderscores : List Char → List Char
  | [] => []
  | [c] => [c]
  | c :: d :: cs =>
    if c = '_' ∧ d.isLower then d.toUpper :: foldUnderscores cs
    else c :: foldUnderscores (d :: cs)

/-- A small first letter, and capitals in place of underscores. -/
def camelCase (s : List Char) : List Char := foldUnderscores (lowerFirst s)

/-! ### Identifiers -/

/-- A character that may stand in an identifier, digits included: ASCII letters and
    digits, the underscore and the dollar sign. -/
def isIdentifierChar (c : Char) : Bool := c.isAlphanum || c == '_' || c == '$'

/-- A non-empty word of identifier characters that does not start with a digit. -/
def isIdentifier : List Char → Bool
  | [] => false
  | c :: cs => !c.isDigit && (c :: cs).all isIdentifierChar

/-- An underscore in place of each character that an identifier cannot hold. -/
def replaceForeign (s : List Char) : List Char :=
  s.map fun c => if isIdentifierChar c then c else '_'

/-- The text as an identifier: foreign characters become underscores, and an
    underscore goes in front where nothing is left or a digit leads. -/
def sanitize (s : List Char) : List Char :=
  match replaceForeign s with
  | [] => ['_']
  | c :: cs => if c.isDigit then '_' :: c :: cs else c :: cs

end QueryClient.Naming
