/-
  QueryClient/Script/SourceFile.lean
  ==================================
  **A source file**: a banner and declarations, with one empty line between any two
  neighbours.
-/
import QueryClient.Script.Declaration

namespace QueryClient.Script

structure SourceFile where
  banner? : Option String
  declarations : List Declaration
deriving Repr

namespace SourceFile

/-- The layouts one after the other, with an empty line between neighbours. -/
def spaced : List (List Layout) → List Layout
  | [] => []
  | [ls] => ls
  | ls :: rest => ls ++ .blank :: spaced rest

/-- The layout of a file; each declaration and the banner is one neighbour. -/
def layout (f : SourceFile) : List Layout :=
  spaced ((f.banner?.map fun b => [.line b]).toList ++ f.declarations.map Declaration.layout)

def text (f : SourceFile) : String := Layout.render f.layout

end SourceFile
end QueryClient.Script
