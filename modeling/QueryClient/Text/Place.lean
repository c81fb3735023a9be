/-
  QueryClient/Text/Place.lean
  ===========================
  **Places in a source text**, as a byte offset or as a line and a column.

  Lines count from 1 and end with a line feed. A column counts the bytes of the line
  before the place, so a place at the start of a line has column 0; a reader that
  reports a byte it has just taken names column 1 for the first byte of the line.
-/
import QueryClient.Text.Utf8

namespace QueryClient.Text

/-- A line, and the number of bytes on it before the place. -/
structure Place where
  line : Nat
  column : Nat
deriving DecidableEq, Repr

namespace Place

def start : Place := ⟨1, 0⟩

/-- The place after one more byte. -/
def next (p : Place) (b : UInt8) : Place :=
  if b == 0x0A then ⟨p.line + 1, 0⟩ else ⟨p.line, p.column + 1⟩

/-- The place `offset` bytes into a text. -/
def ofOffset (bs : Bytes) (offset : Nat) : Place := (bs.take offset).foldl next start

/-- How many bytes the first `lines` lines take, their line feeds included. -/
def lineStart : Nat → Bytes → Nat
  | 0, _ => 0
  | _, [] => 0
  | lines + 1, b :: bs => 1 + lineStart (if b == 0x0A then lines else lines + 1) bs

/-- The offset of the byte that a place names when the column counts from 1 (column 0
    is read as 1). It never lies past the end of the text, and line 0 names no
    byte. -/
def byteOffset? (bs : Bytes) (p : Place) : Option Nat :=
  if p.line = 0 then none
  else some (min (lineStart (p.line - 1) bs + (p.column - 1)) bs.length)

end Place
end QueryClient.Text
