/-
  QueryClient/Text/Quoted.lean
  ============================
  **A text inside a message to the user**: in double quotes, with an escape for each
  character that would end the quotes or could not be seen.
-/
import QueryClient.Text.HiddenTable

namespace QueryClient.Text

/-- A character between the quotes. -/
def shownQuoted (c : Char) : List Char :=
  if c = '\x00' then ['\\', '0']
  else if c = '\t' then ['\\', 't']
  else if c = '\r' then ['\\', 'r']
  else if c = '\n' then ['\\', 'n']
  else if c = '\\' ∨ c = '"' then ['\\', c]
  else if isHidden c then "\\u\x7b".toList ++ Nat.toDigits 16 c.toNat ++ ['\x7d']
  else [c]

/-- A text in quotes. -/
def quoted (s : String) : String :=
  "\"" ++ String.ofList (s.toList.flatMap shownQuoted) ++ "\""

end QueryClient.Text
