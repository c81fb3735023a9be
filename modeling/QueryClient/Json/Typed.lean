/-
  QueryClient/Json/Typed.lean
  ===========================
  **Reading a value as what it should be**: a truth value, a text, a number, a list, or
  a record with known fields.

  A record is written as an object, or as a list of its fields in their order. Fields
  may be left out where the record has a value for them; an object may hold other
  members too, which are passed over, but no field twice.
-/
import QueryClient.Json.Skip

namespace QueryClient.Json

/-! ### Values of another kind -/

/-- Stop because the next value is not of the wanted kind. A scalar is read first, so
    that a fault inside it comes first; a list or an object is not. -/
def wrongType {α : Type} (wanted : String) : Reader α := do
  match ← peek with
  | none => stopAtNext .expectedValue
  | some b =>
    if b = 0x6E then do
      advance
      word restOfNull
      stop (.wrongType .null wanted)
    else if b = 0x74 then do
      advance
      word restOfTrue
      stop (.wrongType (.bool true) wanted)
    else if b = 0x66 then do
      advance
      word restOfFalse
      stop (.wrongType (.bool false) wanted)
    else if b = 0x22 then do
      advance
      let s ← stringRest
      stop (.wrongType (.string s) wanted)
    else if b = 0x2D then do
      advance
      let n ← numberRest true
      stop (.wrongType (.number n) wanted)
    else if isDigit b then do
      let n ← numberRest false
      stop (.wrongType (.number n) wanted)
    else if b = 0x5B then stop (.wrongType .list wanted)
    else if b = 0x7B then stop (.wrongType .object wanted)
    else stopAtNext .expectedValue

/-- The first byte of a value, which must be there. -/
def valueStart : Reader UInt8 := do
  match ← peekSolid with
  | none => stopAtNext .endInValue
  | some b => pure b

/-! ### Scalars -/

/-- A truth value. -/
def readBool : Reader Bool := do
  let b ← valueStart
  if b = 0x74 then do
    advance
    word restOfTrue
    pure true
  else if b = 0x66 then do
    advance
    word restOfFalse
    pure false
  else wrongType "a boolean"

/-- A text; `wanted` is what the message calls it. -/
def readTextAs (wanted : String) : Reader String := do
  let b ← valueStart
  if b = 0x22 then do
    advance
    stringRest
  else wrongType wanted

/-- A text. -/
def readText : Reader String := readTextAs "a string"

/-- Nothing, written as null. -/
def readNull : Reader Unit := do
  let b ← valueStart
  if b = 0x6E then do
    advance
    word restOfNull
  else wrongType "unit"

/-- A whole number from 0 to `max`; `wanted` is what the message calls it. -/
def readNatural (max : Nat) (wanted : String) : Reader Nat := do
  let b ← valueStart
  if b = 0x2D ∨ isDigit b then do
    if b = 0x2D then advance
    match ← numberRest (b = 0x2D) with
    | .natural n => if n ≤ max then pure n else stop (.wrongValue (.number (.natural n)) wanted)
    | .negative n => stop (.wrongValue (.number (.negative n)) wanted)
    | .double x => stop (.wrongType (.number (.double x)) wanted)
  else wrongType wanted

/-- The largest whole number of 32 bits. -/
def maxUInt32 : Nat := 4294967295

/-- A whole number of 32 bits. -/
def readUInt32 : Reader UInt32 := do
  let n ← readNatural maxUInt32 "u32"
  pure (UInt32.ofNat n)

/-- A byte. -/
def readByte : Reader UInt8 := do
  let n ← readNatural 255 "u8"
  pure (UInt8.ofNat n)

/-- A value, or nothing for null. -/
def readNullable {α : Type} (item : Reader α) : Reader (Option α) := do
  let b ← peekSolid
  if b = some 0x6E then do
    advance
    word restOfNull
    pure none
  else do
    let a ← item
    pure (some a)

/-! ### Lists -/

/-- Is there another element? The comma before it is passed over, the bracket after
    the last one stays. -/
def moreElements (first : Bool) : Reader Bool := do
  match ← peekSolid with
  | none => stopAtNext .endInList
  | some b =>
    if b = 0x5D then pure false
    else if first then pure true
    else if b = 0x2C then do
      advance
      match ← peekSolid with
      | none => stopAtNext .endInValue
      | some c => if c = 0x5D then stopAtNext .trailingComma else pure true
    else stopAtNext .expectedListComma

/-- The bracket after the last element. -/
def endList : Reader Unit := do
  match ← peekSolid with
  | none => stopAtNext .endInList
  | some b =>
    if b = 0x5D then advance
    else if b = 0x2C then do
      advance
      let c ← peekSolid
      if c = some 0x5D then stopAtNext .trailingComma else stopAtNext .trailingCharacters
    else stopAtNext .trailingCharacters

/-- The elements of a list. Every turn but the last takes at least one byte. -/
def elements {α : Type} (item : Reader α) : (turns : Nat) → (first : Bool) → Reader (List α)
  | 0, _ => stop .endInList
  | turns + 1, first => do
    if ← moreElements first then do
      let a ← item
      let as ← elements item turns false
      pure (a :: as)
    else pure []

/-- The elements of a list and the bracket after them, from behind the bracket before
    them. -/
def listRest {α : Type} (item : Reader α) : Reader (List α) := do
  let as ← fun bs => elements item (bs.length + 1) true bs
  endList
  pure as

/-- A list. -/
def readList {α : Type} (item : Reader α) : Reader (List α) := do
  let b ← valueStart
  if b = 0x5B then do
    advance
    listRest item
  else wrongType "a sequence"

/-! ### Members of objects -/

/-- Is there another member? The comma before it is passed over; its key, or the brace
    after the last one, stays. -/
def moreMembers (first : Bool) : Reader Bool := do
  match ← peekSolid with
  | none => stopAtNext .endInObject
  | some b =>
    if b = 0x7D then pure false
    else if first then if b = 0x22 then pure true else stopAtNext .keyNotText
    else if b = 0x2C then do
      advance
      match ← peekSolid with
      | none => stopAtNext .endInValue
      | some c =>
        if c = 0x22 then pure true
        else if c = 0x7D then stopAtNext .trailingComma
        else stopAtNext .keyNotText
    else stopAtNext .expectedObjectComma

/-- The colon behind a key. -/
def colon : Reader Unit := do
  match ← peekSolid with
  | none => stopAtNext .endInObject
  | some b => if b = 0x3A then advance else stopAtNext .expectedColon

/-- A key, which begins with the next byte. -/
def readKey : Reader String := do
  advance
  stringRest

/-! ### Records -/

/-- A field of a record: its name, whether a record needs it, and how its value is
    worked into the record. -/
structure Field (R : Type) where
  name : String
  required : Bool
  read : R → Reader R

/-- A record type: what messages call it, its fields in order, and the record with no
    field given. -/
structure RecordType (R : Type) where
  name : String
  fields : List (Field R)
  empty : R

namespace RecordType

variable {R : Type}

/-- How a message names a record that is too short. -/
def lengthWanted (t : RecordType R) : String :=
  "struct " ++ t.name ++ " with " ++ t.fields.length.repr ++
    (if t.fields.length = 1 then " element" else " elements")

/-- How many of the fields come before the first one that is needed. -/
def firstRequired (fields : List (Field R)) : Option Nat := fields.findIdx? (·.required)

/-- The fields from number `i` on, as elements of a list. -/
def readElements (t : RecordType R) : (i : Nat) → List (Field R) → R → Reader R
  | _, [], r => pure r
  | i, f :: fs, r => do
    if ← moreElements (i = 0) then do
      let r ← f.read r
      t.readElements (i + 1) fs r
    else
      match firstRequired (f :: fs) with
      | none => pure r
      | some n => do
        advance
        stop (.wrongLength (i + n) t.lengthWanted)

/-- The members of an object, given the names of the fields read so far. Every turn but
    the last takes at least one byte. -/
def readMembers (t : RecordType R) :
    (turns : Nat) → (first : Bool) → (seen : List String) → R → Reader R
  | 0, _, _, _ => stop .endInObject
  | turns + 1, first, seen, r => do
    if ← moreMembers first then do
      let key ← readKey
      match t.fields.find? (·.name == key) with
      | none => do
        colon
        skipValue
        t.readMembers turns false seen r
      | some f =>
        if seen.contains key then do
          if (← peekSolid) = some 0x7D then advance
          stop (.duplicateField key)
        else do
          colon
          let r ← f.read r
          t.readMembers turns false (key :: seen) r
    else do
      advance
      match t.fields.find? fun f => f.required && !seen.contains f.name with
      | none => pure r
      | some f => stop (.missingField f.name)

/-- A record. -/
def read (t : RecordType R) : Reader R := do
  let b ← valueStart
  if b = 0x5B then do
    advance
    let r ← t.readElements 0 t.fields t.empty
    endList
    pure r
  else if b = 0x7B then do
    advance
    fun bs => t.readMembers (bs.length + 1) true [] t.empty bs
  else wrongType ("struct " ++ t.name)

end RecordType

/-! ### Words from a fixed choice -/

/-- A word from a choice of words, or an object with the word as its only key and null
    as the value. -/
def readChoice {α : Type} (word : α → String) (choice : List α) : Reader α := do
  let pick : Reader α := do
    let s ← readTextAs "variant identifier"
    match choice.find? (word · == s) with
    | some a => pure a
    | none => stop (.unknownVariant s (choice.map word))
  let b ← valueStart
  if b = 0x7B then do
    advance
    match ← peekSolid with
    | none => stopAtNext .endInObject
    | some c =>
      if c = 0x7D then stopAtNext .expectedValue
      else if c = 0x22 then pure ()
      else stopAtNext .keyNotText
    let a ← pick
    colon
    readNull
    match ← peekSolid with
    | none => stop .endInObject
    | some c => if c = 0x7D then advance else stop .expectedValue
    pure a
  else if b = 0x22 then pick
  else stopAtNext .expectedValue

/-! ### Whole texts -/

/-- Read a whole text; nothing but blanks may follow the value. -/
def readAll {α : Type} (value : Reader α) (bs : Bytes) : Except Fault α :=
  let reader : Reader α := do
    let a ← value
    match ← peekSolid with
    | none => pure a
    | some _ => stopAtNext .trailingCharacters
  match reader bs with
  | .ok (a, _) => .ok a
  | .error s => .error ⟨s.cause, Text.Place.ofOffset bs (bs.length - s.left)⟩

end QueryClient.Json
