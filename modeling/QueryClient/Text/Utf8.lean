/-
  QueryClient/Text/Utf8.lean
  ==========================
  **Texts as bytes.**

  A byte sequence is cut into pieces from the left: characters, and the fragments
  that belong to no character. A fragment is as long as it can be while it still
  begins some well-formed sequence, and at least one byte. Strict reading refuses
  the first fragment and says where it lies; lenient reading shows each fragment as
  the replacement character.

  The reader is a machine that takes one byte at a time. Between two characters it
  is `idle`; inside a sequence it remembers how many bytes are still due, which
  range the next one must lie in, and the code point so far. The range is narrower
  than `0x80 … 0xBF` only for the second byte, which is where overlong forms,
  surrogates and code points past the last one are cut off.
-/

namespace QueryClient

/-- A sequence of bytes. -/
abbrev Bytes := List UInt8

namespace Text

def utf8 (s : String) : Bytes := s.toList.flatMap String.utf8EncodeChar

/-- The character shown in place of bytes that are no text. -/
def replacement : Char := '\uFFFD'

/-- What a byte sequence consists of: characters, fragments of the given length that
    the next byte cannot continue, and a fragment that the end of the input cuts
    off. -/
inductive Piece where
  | char (c : Char)
  | broken (length : Nat)
  | unfinished (length : Nat)
deriving DecidableEq, Repr

/-- The reader between two bytes: `due` more bytes, the next one within
    `low … high`; `seen` bytes so far have the value `value`. -/
inductive Utf8State where
  | idle
  | inside (due : Nat) (low high : UInt8) (value seen : Nat)
deriving DecidableEq, Repr

/-- The first byte of a character: the character if the byte is one already, and the
    state to go on in. -/
def Utf8State.start (b : UInt8) : Option Piece × Utf8State :=
  if b < 0x80 then (some (.char (Char.ofNat b.toNat)), .idle)
  else if 0xC2 ≤ b && b ≤ 0xDF then (none, .inside 1 0x80 0xBF (b.toNat - 0xC0) 1)
  else if b == 0xE0 then (none, .inside 2 0xA0 0xBF 0 1)
  else if b == 0xED then (none, .inside 2 0x80 0x9F 13 1)
  else if 0xE1 ≤ b && b ≤ 0xEF then (none, .inside 2 0x80 0xBF (b.toNat - 0xE0) 1)
  else if b == 0xF0 then (none, .inside 3 0x90 0xBF 0 1)
  else if 0xF1 ≤ b && b ≤ 0xF3 then (none, .inside 3 0x80 0xBF (b.toNat - 0xF0) 1)
  else if b == 0xF4 then (none, .inside 3 0x80 0x8F 4 1)
  else (some (.broken 1), .idle)

/-- One byte: the pieces that it completes, and the next state. A byte that cannot
    continue the sequence ends it as a fragment and starts over. -/
def Utf8State.step : Utf8State → UInt8 → List Piece × Utf8State
  | .idle, b => ((start b).1.toList, (start b).2)
  | .inside due low high value seen, b =>
    if low ≤ b && b ≤ high then
      let value := value * 64 + (b.toNat - 0x80)
      if due ≤ 1 then ([.char (Char.ofNat value)], .idle)
      else ([], .inside (due - 1) 0x80 0xBF value (seen + 1))
    else (.broken seen :: (start b).1.toList, (start b).2)

/-- The pieces of a byte sequence, read on from a state. -/
def piecesFrom : Utf8State → Bytes → List Piece
  | .idle, [] => []
  | .inside _ _ _ _ seen, [] => [.unfinished seen]
  | st, b :: bs => (st.step b).1 ++ piecesFrom (st.step b).2 bs

/-- The pieces of a byte sequence. -/
def pieces (bs : Bytes) : List Piece := piecesFrom .idle bs

/-! ### Lenient reading -/

/-- The character that stands for a piece. -/
def Piece.shown : Piece → Char
  | .char c => c
  | .broken _ => replacement
  | .unfinished _ => replacement

/-- The text of a byte sequence, with the replacement character for each fragment. -/
def lossy (bs : Bytes) : String := String.ofList ((pieces bs).map Piece.shown)

/-! ### Strict reading -/

/-- Why bytes are no text: the index of the first fragment, and its length unless
    the input ends inside it. -/
structure Utf8Fault where
  index : Nat
  length : Option Nat
deriving DecidableEq, Repr

def Utf8Fault.message (f : Utf8Fault) : String :=
  match f.length with
  | some n => s!"invalid utf-8 sequence of {n} bytes from index {f.index}"
  | none => s!"incomplete utf-8 byte sequence from index {f.index}"

/-- The characters up to the first fragment, which starts `index` bytes into the
    input. -/
def charactersFrom : Nat → List Piece → Except Utf8Fault (List Char)
  | _, [] => .ok []
  | index, .char c :: ps => (charactersFrom (index + c.utf8Size) ps).map (c :: ·)
  | index, .broken n :: _ => .error ⟨index, some n⟩
  | index, .unfinished _ :: _ => .error ⟨index, none⟩

/-- The text of a byte sequence, if every byte belongs to a character. -/
def text? (bs : Bytes) : Except Utf8Fault String :=
  (charactersFrom 0 (pieces bs)).map String.ofList

end Text
end QueryClient
