/-
  QueryClient/Request.lean
  ========================
  **Requests and responses**: queries with the settings for them, and the files
  generated from them.
-/
import QueryClient.Query
import QueryClient.Text.Utf8

namespace QueryClient

/-- The input of one run. The settings are JSON text as it came in, or nothing. -/
structure Request where
  queries : List Query
  settings : Bytes
deriving DecidableEq, Repr

structure OutputFile where
  name : String
  contents : Bytes
deriving DecidableEq, Repr

/-- The contents as text; bytes that are no text show as the replacement
    character. -/
def OutputFile.text (f : OutputFile) : String := Text.lossy f.contents

/-- The output of one run. -/
structure Response where
  files : List OutputFile
deriving DecidableEq, Repr

end QueryClient
