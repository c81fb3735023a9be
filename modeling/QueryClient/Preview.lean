/-
  QueryClient/Preview.lean
  ========================
  **The preview of a response**: its files one after the other, and how many there
  are.
-/
import QueryClient.Request

namespace QueryClient

/-- An item of a preview: a divider with a label, a text shown as it is, or a line. -/
inductive PreviewItem where
  | divider (label : String)
  | preformatted (text : String)
  | line (text : String)
deriving DecidableEq, Repr

/-- An item as it is printed. -/
def PreviewItem.text : PreviewItem → String
  | .divider label => "── " ++ label ++ " ──\n"
  | .preformatted s => s ++ "\n"
  | .line s => s ++ "\n"

namespace Response

/-- How many files there are, in words. -/
def countLine (r : Response) : String :=
  let files := if r.files.length = 1 then "file" else "files"
  r.files.length.repr ++ " " ++ files ++ " would be generated"

/-- The preview of a response. -/
def preview (r : Response) : List PreviewItem :=
  r.files.flatMap (fun f => [.divider f.name, .preformatted f.text]) ++
    [.divider "Summary", .line r.countLine]

end Response
end QueryClient
