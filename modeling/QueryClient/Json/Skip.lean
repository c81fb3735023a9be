/-
  QueryClient/Json/Skip.lean
  ==========================
  **Passing over a value** that nobody asked for. Only its syntax is looked at: a
  number may be too large for any type, an escape need not be a character, and the
  bytes of a string need not be text.

  Nesting has no limit here, so the lists and objects that are open are kept on a
  stack, innermost first, instead of being worked through by recursion.
-/
import QueryClient.Json.Reader

namespace QueryClient.Json

/-! ### Strings and numbers -/

/-- Pass over an escape, from behind its backslash. -/
def skipEscape : Reader Unit := do
  match ← peek with
  | none => stop .endInString
  | some b =>
    if b = 0x75 then do
      advance
      discard hexFour
    else
      match shortEscape? b with
      | some _ => advance
      | none => stopAtNext .badEscape

/-- Pass over a string, from behind its opening quote. Every turn takes at least one
    byte. -/
def skipStringFrom : (turns : Nat) → Reader Unit
  | 0 => stop .endInString
  | turns + 1 => do
    match ← peek with
    | none => stop .endInString
    | some b =>
      if b < 0x20 then stop .controlCharacter
      else do
        advance
        if b = 0x22 then pure ()
        else if b = 0x5C then do
          skipEscape
          skipStringFrom turns
        else skipStringFrom turns

/-- Pass over a string, from behind its opening quote. -/
def skipString : Reader Unit := fun bs => skipStringFrom (bs.length + 1) bs

/-- Pass over an exponent, from its mark on. -/
def skipExponent : Reader Unit := do
  advance
  let sign ← peek
  if sign = some 0x2B ∨ sign = some 0x2D then advance
  let digits ← skipDigits
  if digits = 0 then stopAtNext .badNumber

/-- Pass over a fraction, from its point on. -/
def skipFraction : Reader Unit := do
  advance
  let digits ← skipDigits
  if digits = 0 then stopAtNext .badNumber
  else do
    let b ← peek
    if b = some 0x65 ∨ b = some 0x45 then skipExponent

/-- Pass over a number, from behind its sign. -/
def skipNumber : Reader Unit := do
  let first ← peek
  let digits ← skipDigits
  if digits = 0 then stopAtNext .badNumber
  else if first = some 0x30 ∧ digits ≠ 1 then fun bs => .error ⟨.badNumber, bs.length + digits - 2⟩
  else do
    let b ← peek
    if b = some 0x2E then skipFraction
    else if b = some 0x65 ∨ b = some 0x45 then skipExponent

/-! ### Values -/

/-- A list or an object that is open. -/
inductive Frame where
  | list
  | object
deriving DecidableEq, Repr

namespace Frame

/-- The byte that closes it. -/
def closing : Frame → UInt8
  | .list => 0x5D
  | .object => 0x7D

/-- What the end of the input means inside it. -/
def atEnd : Frame → Cause
  | .list => .endInList
  | .object => .endInObject

/-- What any byte but a comma or the closing one means inside it. -/
def missingComma : Frame → Cause
  | .list => .expectedListComma
  | .object => .expectedObjectComma

end Frame

/-- Pass over a key and its colon. -/
def skipKey : Reader Unit := do
  match ← peekSolid with
  | none => stopAtNext .endInObject
  | some b =>
    if b = 0x22 then do
      advance
      skipString
      match ← peekSolid with
      | none => stopAtNext .endInObject
      | some c => if c = 0x3A then advance else stopAtNext .expectedColon
    else stopAtNext .keyNotText

/-- What comes before the first value of an open list or object, and before the value
    after a comma: nothing, or a key. -/
def Frame.lead : Frame → Reader Unit
  | .list => pure ()
  | .object => skipKey

/-- Pass over a value that is neither a list nor an object, given its first byte. -/
def skipScalar (b : UInt8) : Reader Unit := do
  if b = 0x6E then do
    advance
    word restOfNull
  else if b = 0x74 then do
    advance
    word restOfTrue
  else if b = 0x66 then do
    advance
    word restOfFalse
  else if b = 0x22 then do
    advance
    skipString
  else if b = 0x2D then do
    advance
    skipNumber
  else if isDigit b then skipNumber
  else stopAtNext .expectedValue

/-- What to do next: pass over a value, or see how the open list or object goes on. -/
inductive Phase where
  | value
  | after
deriving DecidableEq, Repr

/-- One move, which takes at least one byte unless it is the last: what to do next and
    what is open then, or nothing when the value has been passed over. -/
def skipMove : Phase → List Frame → Reader (Option (Phase × List Frame))
  | .value, stack => do
    match ← peekSolid with
    | none => stopAtNext .endInValue
    | some b =>
      match (if b = 0x5B then some Frame.list else if b = 0x7B then some Frame.object else none) with
      | none => do
        skipScalar b
        pure (some (.after, stack))
      | some frame => do
        advance
        match ← peekSolid with
        | none => stopAtNext frame.atEnd
        | some c =>
          if c = frame.closing then do
            advance
            pure (some (.after, stack))
          else do
            frame.lead
            pure (some (.value, frame :: stack))
  | .after, [] => pure none
  | .after, frame :: stack => do
    match ← peekSolid with
    | none => stopAtNext frame.atEnd
    | some b =>
      if b = 0x2C then do
        advance
        frame.lead
        pure (some (.value, frame :: stack))
      else if b = frame.closing then do
        advance
        pure (some (.after, stack))
      else stopAtNext frame.missingComma

/-- Make moves until the value has been passed over. -/
def skipMoves : (turns : Nat) → Phase → List Frame → Bytes → Except Stop (Unit × Bytes)
  | 0, _, _, bs => .error ⟨.endInValue, bs.length⟩
  | turns + 1, phase, stack, bs =>
    match skipMove phase stack bs with
    | .error e => .error e
    | .ok (none, rest) => .ok ((), rest)
    | .ok (some (phase, stack), rest) => skipMoves turns phase stack rest

/-- Pass over a value. -/
def skipValue : Reader Unit := fun bs => skipMoves (bs.length + 2) .value [] bs

end QueryClient.Json
