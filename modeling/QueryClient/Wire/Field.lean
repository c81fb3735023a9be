/-
  QueryClient/Wire/Field.lean
  ===========================
  **Fields of messages**, in both directions.

  A message is described by a table that tells, for a field number, how the payload is
  worked into the message read so far: a plain value replaces the one before it, a
  repeated field gains an element, and a message inside a message is read on. A field
  whose value is the default is not written at all.
-/
import QueryClient.Wire.Record

namespace QueryClient.Wire

/-! ### Writing -/

/-- A field with a payload of bytes. -/
def delimited (field : Nat) (payload : Bytes) : Bytes :=
  Key.bytes ⟨field, .lengthDelimited⟩ ++ varint payload.length ++ payload

def delimitedSize (field payload : Nat) : Nat :=
  Key.size ⟨field, .lengthDelimited⟩ + varintSize payload + payload

/-- A field for each of the payloads. -/
def repeatedField (field : Nat) : List Bytes → Bytes
  | [] => []
  | payload :: rest => delimited field payload ++ repeatedField field rest

def repeatedFieldSize (field : Nat) : List Nat → Nat
  | [] => 0
  | payload :: rest => delimitedSize field payload + repeatedFieldSize field rest

/-- A field of bytes; none at all for no bytes. -/
def bytesField (field : Nat) (bs : Bytes) : Bytes := if bs.isEmpty then [] else delimited field bs

def bytesFieldSize (field : Nat) (bs : Bytes) : Nat :=
  if bs.isEmpty then 0 else delimitedSize field bs.length

def textField (field : Nat) (s : String) : Bytes := bytesField field (Text.utf8 s)

def textFieldSize (field : Nat) (s : String) : Nat :=
  if s = "" then 0 else delimitedSize field s.utf8ByteSize

def boolField (field : Nat) (b : Bool) : Bytes :=
  if b then Key.bytes ⟨field, .varint⟩ ++ varint 1 else []

def boolFieldSize (field : Nat) (b : Bool) : Nat :=
  if b then Key.size ⟨field, .varint⟩ + 1 else 0

/-- How many numbers 64 bits can hold: 2^64. -/
def wordCount : Int := 18446744073709551616

/-- A signed integer of 32 bits as the 64 bits that it is written with. -/
def signedBits (n : Int32) : Nat := (n.toInt % wordCount).toNat

def int32Field (field : Nat) (n : Int32) : Bytes :=
  if n = 0 then [] else Key.bytes ⟨field, .varint⟩ ++ varint (signedBits n)

def int32FieldSize (field : Nat) (n : Int32) : Nat :=
  if n = 0 then 0 else Key.size ⟨field, .varint⟩ + varintSize (signedBits n)

/-! ### Reading -/

/-- The payload must be written in the given way. -/
def expect (found expected : WireType) : Reader Unit :=
  if found = expected then pure () else failWith (.otherWireType found expected)

/-- Read a length and so many bytes. -/
def readDelimited (type : WireType) : Reader Bytes := do
  expect type .lengthDelimited
  let n ← readVarint
  takeBytes n

def readText (type : WireType) : Reader String := do
  let bs ← readDelimited type
  match Text.text? bs with
  | .ok s => pure s
  | .error _ => failWith .notText

/-- Read a truth value; every number but 0 is true. -/
def readBool (type : WireType) : Reader Bool := do
  expect type .varint
  let n ← readVarint
  pure (n != 0)

/-- Read a signed integer; of a number of 64 bits the lower half counts. -/
def readInt32 (type : WireType) : Reader Int32 := do
  expect type .varint
  let n ← readVarint
  pure (Int32.ofNat n)

/-- How one field is read: its name, and what its payload makes of the message read so
    far. -/
structure FieldReader (M : Type) where
  name : String
  read : WireType → M → Reader M

/-- A message type: its name, the message without fields, and its fields by number.
    `depth` bounds the nesting of what a field holds. -/
structure MessageType (M : Type) where
  name : String
  empty : M
  field? : (depth number : Nat) → Option (FieldReader M)

namespace MessageType

variable {M : Type}

/-- Read one record into a message. -/
def readRecord (t : MessageType M) (depth : Nat) (m : M) : Reader M := do
  let k ← readKey
  match t.field? depth k.field with
  | none => do
    skipPayload depth k
    pure m
  | some f => fun bs =>
    match f.read k.type m bs with
    | .ok r => .ok r
    | .error e => .error (e.within ⟨t.name, f.name⟩)

/-- Read records until no more than `rest` bytes are left. Every record takes at least
    one byte, so `turns` is never used up if it starts above the length of the
    input. -/
def readRecords (t : MessageType M) (depth rest : Nat) : (turns : Nat) → M → Reader M
  | 0, m => pure m
  | turns + 1, m => do
    let n ← remaining
    if n ≤ rest then pure m
    else do
      let m ← t.readRecord depth m
      t.readRecords depth rest turns m

/-- Read a message inside a message into what has been read of it before. Its records
    end where its length says, and no record may reach further. -/
def readNested (t : MessageType M) : (depth : Nat) → WireType → M → Reader M
  | 0, type, _ => do
    expect type .lengthDelimited
    failWith .nestedTooDeeply
  | depth + 1, type, m => do
    expect type .lengthDelimited
    let length ← readVarint
    let available ← remaining
    if available < length then failWith .pastTheEnd
    else do
      let m ← t.readRecords depth (available - length) (length + 1) m
      let left ← remaining
      if left = available - length then pure m else failWith .pastTheMessage

/-- The nesting that a message may have. -/
def depthLimit : Nat := 100

/-- Read bytes as one message. -/
def decode (t : MessageType M) (bs : Bytes) : Except Fault M :=
  (t.readRecords depthLimit 0 (bs.length + 1) t.empty bs).map (·.1)

end MessageType

namespace FieldReader

variable {M : Type}

/-- A plain value, which replaces the one before it. -/
def plain {α : Type} (name : String) (value : WireType → Reader α) (set : M → α → M) :
    FieldReader M where
  name := name
  read type m := do
    let a ← value type
    pure (set m a)

/-- A message of which the input may hold several parts. -/
def nested {N : Type} (name : String) (t : MessageType N) (depth : Nat) (get : M → Option N)
    (set : M → N → M) : FieldReader M where
  name := name
  read type m := do
    let n ← t.readNested depth type ((get m).getD t.empty)
    pure (set m n)

/-- One more element of a repeated field. -/
def repeated {N : Type} (name : String) (t : MessageType N) (depth : Nat) (add : M → N → M) :
    FieldReader M where
  name := name
  read type m := do
    let n ← t.readNested depth type t.empty
    pure (add m n)

end FieldReader
end QueryClient.Wire
