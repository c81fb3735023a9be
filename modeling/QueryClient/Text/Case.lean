/-
  QueryClient/Text/Case.lean
  ==========================
  **Capital and small forms of one character.**

  A capital form may be longer than the character it belongs to (`ß` becomes `SS`),
  so both mappings yield a list of characters. Each character is mapped by itself:
  neither its neighbours nor a language have a say. A character without a mapping
  stands for itself.
-/
import QueryClient.Text.CaseTable

namespace QueryClient.Text

/-- Map one character by a table of runs and a table of expansions. -/
def mapCase (runs : List CaseRun) (expansions : List (Nat × List Nat)) (c : Char) : List Char :=
  match runs.find? (·.covers c.toNat) with
  | some r => [Char.ofNat (c.toNat + r.shift).toNat]
  | none =>
    match expansions.lookup c.toNat with
    | some ns => ns.map Char.ofNat
    | none => [c]

def upper (c : Char) : List Char := mapCase upperRuns upperExpansions c

def lower (c : Char) : List Char := mapCase lowerRuns lowerExpansions c

/-- Small letters for the ASCII capitals; every other character stays. -/
def asciiLower (s : List Char) : List Char := s.map Char.toLower

end QueryClient.Text
