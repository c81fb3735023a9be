/-
  QueryClient/Wire/Record.lean
  ============================
  **Records**: the key and the payload that every field consists of, and how a record
  that nobody asked for is passed over.

  A number of variable length is written in groups of seven bits, the lowest first;
  every byte but the last has its high bit set. Ten bytes hold 64 bits, so the tenth
  byte may be 0 or 1 only.
-/
import QueryClient.Text.Utf8
import QueryClient.Wire.Fault

namespace QueryClient.Wire

/-! ### Reading from the front -/

/-- A reader takes bytes from the front of what is left of the input. -/
abbrev Reader (α : Type) := StateT Bytes (Except Fault) α

def failWith {α : Type} (cause : Cause) : Reader α := fun _ => .error (.bare cause)

/-- How many bytes are left. -/
def remaining : Reader Nat := fun bs => .ok (bs.length, bs)

def takeBytes (n : Nat) : Reader Bytes := fun bs =>
  if bs.length < n then .error (.bare .pastTheEnd) else .ok (bs.take n, bs.drop n)

/-! ### Numbers of variable length -/

/-- A number, lowest seven bits first. -/
def varint (n : Nat) : Bytes :=
  if n < 128 then [UInt8.ofNat n] else UInt8.ofNat (n % 128 + 128) :: varint (n / 128)
termination_by n
decreasing_by omega

def varintSize (n : Nat) : Nat := n.log2 / 7 + 1

/-- Read a number of at most `room` bytes; the last byte that there is room for holds
    one bit. -/
def varintFrom : (room : Nat) → Bytes → Except Fault (Nat × Bytes)
  | 0, _ => .error (.bare .badVarint)
  | _ + 1, [] => .error (.bare .badVarint)
  | room + 1, b :: bs =>
    if b < 128 then
      if room = 0 ∧ 2 ≤ b then .error (.bare .badVarint) else .ok (b.toNat, bs)
    else
      match varintFrom room bs with
      | .ok (n, rest) => .ok (b.toNat - 128 + 128 * n, rest)
      | .error e => .error e

/-- Read a number of 64 bits. -/
def readVarint : Reader Nat := varintFrom 10

/-! ### Keys -/

/-- The number of a field and the wire type of its payload. -/
structure Key where
  field : Nat
  type : WireType
deriving DecidableEq, Repr

def Key.value (k : Key) : Nat := k.field * 8 + k.type.code

/-- A key in front of a payload. -/
def Key.bytes (k : Key) : Bytes := varint k.value

def Key.size (k : Key) : Nat := varintSize k.value

/-- The largest key as a number. -/
def maxKey : Nat := 4294967295

/-- Read a key: 32 bits, a known wire type, and a field number other than 0. -/
def readKey : Reader Key := do
  let n ← readVarint
  if maxKey < n then failWith (.keyTooLarge n)
  else
    match WireType.ofCode? (n % 8) with
    | none => failWith (.unknownWireType (n % 8))
    | some type => if n / 8 = 0 then failWith .fieldZero else pure ⟨n / 8, type⟩

/-! ### Passing over a record -/

/-- Pass over the records of a group up to its end mark, which must carry the number
    of the group. Every turn takes at least one byte, so `turns` is never used up if
    it starts above the length of the input. -/
def skipGroup (skip : Key → Reader Unit) (field : Nat) : (turns : Nat) → Reader Unit
  | 0 => failWith .badVarint
  | turns + 1 => do
    let k ← readKey
    if k.type = .groupEnd then
      if k.field = field then pure () else failWith .strayGroupEnd
    else do
      skip k
      skipGroup skip field turns

/-- Pass over the payload of a record; groups may be nested `depth` deep. -/
def skipPayload : (depth : Nat) → Key → Reader Unit
  | 0, _ => failWith .nestedTooDeeply
  | depth + 1, k =>
    match k.type with
    | .varint => discard readVarint
    | .fixed64 => discard (takeBytes 8)
    | .lengthDelimited => do
      let n ← readVarint
      discard (takeBytes n)
    | .groupStart => do
      let n ← remaining
      skipGroup (skipPayload depth) k.field (n + 1)
    | .groupEnd => failWith .strayGroupEnd
    | .fixed32 => discard (takeBytes 4)

end QueryClient.Wire
