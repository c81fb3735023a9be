/-
  QueryClient/Naming/Basic.lean
  =============================
  **The names of generated code.** A query lends its name to a function and to its
  interfaces, a column to a field, a source file to an output file.

  Functions and interfaces keep clear of the reserved words of the generated
  language; fields do not have to, since any word may be a property name.
-/
import QueryClient.Naming.Words

namespace QueryClient.Naming

/-- The words that no function or interface is named by: those that the language
    reserves, and those that would be confused with its types and modifiers. -/
def reservedWords : List String :=
  ["break", "case", "catch", "class", "const", "continue", "debugger", "default", "delete", "do",
   "else", "enum", "export", "extends", "false", "finally", "for", "function", "if", "import",
   "in", "instanceof", "let", "new", "null", "return", "super", "switch", "this", "throw", "true",
   "try", "typeof", "var", "void", "while", "with", "yield",
   "any", "as", "async", "await", "boolean", "constructor", "declare", "get", "implements",
   "interface", "module", "namespace", "never", "number", "object", "package", "private",
   "protected", "public", "readonly", "require", "set", "static", "string", "symbol", "type",
   "undefined", "unknown"]

/-- Is the word reserved? -/
def isReserved (s : String) : Bool := reservedWords.contains s

/-- The word itself, or with an underscore in front if it is reserved. -/
def avoidReserved (s : String) : String := if isReserved s then "_" ++ s else s

/-- The function of a query: the query's name with a small first letter. -/
def functionName (query : String) : String :=
  avoidReserved (String.ofList (sanitize (lowerFirst query.toList)))

/-- What the interfaces of a query are called after: its name in Pascal case. -/
def typeName (query : String) : String :=
  avoidReserved (String.ofList (sanitize (pascalCase query.toList)))

/-- The field of a column: the column's name in camel case. -/
def fieldName (column : String) : String := String.ofList (sanitize (camelCase column.toList))

/-- An underscore in place of the first dot. -/
def replaceFirstDot : List Char → List Char
  | [] => []
  | c :: cs => if c = '.' then '_' :: cs else c :: replaceFirstDot cs

/-- The output file of a source file, without its extension. -/
def fileStem (source : String) : String := String.ofList (replaceFirstDot source.toList)

end QueryClient.Naming
