/-
  QueryClient/Json/Reader.lean
  ============================
  **Readers**, and the smallest parts of a JSON text: blanks, words, strings and
  numbers.

  A reader takes bytes from the front of what is left. A reader that stops tells the
  cause and how many bytes were left then, from which the place follows once the
  whole text is at hand.
-/
import QueryClient.Json.Fault

namespace QueryClient.Json

/-- Where and why reading stopped: the cause, and the number of bytes left. -/
structure Stop where
  cause : Cause
  left : Nat
deriving DecidableEq, Repr

/-- A reader takes bytes from the front of what is left of the input. -/
abbrev Reader (α : Type) := StateT Bytes (Except Stop) α

/-- Stop behind the bytes taken so far. -/
def stop {α : Type} (cause : Cause) : Reader α := fun bs => .error ⟨cause, bs.length⟩

/-- Stop behind the next byte, which is the one that cannot be right; at the end of the
    input, stop there. -/
def stopAtNext {α : Type} (cause : Cause) : Reader α := fun bs => .error ⟨cause, bs.length - 1⟩

/-- Pass over one byte. -/
def advance : Reader Unit := fun bs => .ok ((), bs.drop 1)

/-- The next byte, which stays. -/
def peek : Reader (Option UInt8) := fun bs => .ok (bs.head?, bs)

/-! ### Blanks and words -/

/-- Space, tab, line feed and carriage return. -/
def isBlank (b : UInt8) : Bool := b == 0x20 || b == 0x09 || b == 0x0A || b == 0x0D

/-- The next byte that is not blank; the blanks are passed over, the byte stays. -/
def peekSolid : Reader (Option UInt8) := fun bs =>
  let rest := bs.dropWhile isBlank
  .ok (rest.head?, rest)

/-- The bytes that are left of a word must come next. -/
def word : Bytes → Reader Unit
  | [] => pure ()
  | w :: ws => do
    match ← peek with
    | none => stop .endInValue
    | some b =>
      if b = w then do
        advance
        word ws
      else stopAtNext .badWord

/-- The word `null`, and the rests of the three words after their first letter. -/
def restOfNull : Bytes := [0x75, 0x6C, 0x6C]

/-- What follows the first letter of `true`. -/
def restOfTrue : Bytes := [0x72, 0x75, 0x65]

/-- What follows the first letter of `false`. -/
def restOfFalse : Bytes := [0x61, 0x6C, 0x73, 0x65]

/-! ### Strings -/

/-- The value of a hexadecimal digit. -/
def hexDigit? (b : UInt8) : Option Nat :=
  if 0x30 ≤ b && b ≤ 0x39 then some (b.toNat - 0x30)
  else if 0x41 ≤ b && b ≤ 0x46 then some (b.toNat - 0x41 + 10)
  else if 0x61 ≤ b && b ≤ 0x66 then some (b.toNat - 0x61 + 10)
  else none

/-- Four hexadecimal digits as a number. -/
def hexFour : Reader Nat := fun bs =>
  match bs with
  | a :: b :: c :: d :: rest =>
    match hexDigit? a, hexDigit? b, hexDigit? c, hexDigit? d with
    | some a, some b, some c, some d => .ok (((a * 16 + b) * 16 + c) * 16 + d, rest)
    | _, _, _, _ => .error ⟨.badEscape, rest.length⟩
  | _ => .error ⟨.endInString, 0⟩

/-- A byte that must come next in the second half of a surrogate pair. -/
def pairByte (b : UInt8) : Reader Unit := do
  match ← peek with
  | none => stop .endInString
  | some c => if c = b then advance else stopAtNext .halfSurrogate

/-- The character of an escape, from its four digits on. A code point above the first
    65536 takes two such escapes, each half with its own range. -/
def unicodeEscape : Reader Char := do
  let n ← hexFour
  if 0xDC00 ≤ n ∧ n ≤ 0xDFFF then stop .loneSurrogate
  else if n < 0xD800 ∨ 0xDBFF < n then pure (Char.ofNat n)
  else do
    pairByte 0x5C
    pairByte 0x75
    let m ← hexFour
    if m < 0xDC00 ∨ 0xDFFF < m then stop .loneSurrogate
    else pure (Char.ofNat ((n - 0xD800) * 0x400 + (m - 0xDC00) + 0x10000))

/-- The byte that a letter after a backslash stands for. -/
def shortEscape? (b : UInt8) : Option UInt8 :=
  if b = 0x22 ∨ b = 0x5C ∨ b = 0x2F then some b
  else if b = 0x62 then some 0x08
  else if b = 0x66 then some 0x0C
  else if b = 0x6E then some 0x0A
  else if b = 0x72 then some 0x0D
  else if b = 0x74 then some 0x09
  else none

/-- The bytes of an escape, from behind its backslash. -/
def escape : Reader Bytes := do
  match ← peek with
  | none => stop .endInString
  | some b =>
    if b = 0x75 then do
      advance
      let c ← unicodeEscape
      pure (String.utf8EncodeChar c)
    else
      match shortEscape? b with
      | some v => do
        advance
        pure [v]
      | none => stopAtNext .badEscape

/-- The bytes of a string up to its closing quote, which is passed over. Every turn
    takes at least one byte, so `turns` is never used up if it starts above the length
    of the input. -/
def stringBytes : (turns : Nat) → Reader Bytes
  | 0 => stop .endInString
  | turns + 1 => do
    match ← peek with
    | none => stop .endInString
    | some b => do
      advance
      if b = 0x22 then pure []
      else if b = 0x5C then do
        let head ← escape
        let tail ← stringBytes turns
        pure (head ++ tail)
      else if b < 0x20 then stop .controlCharacter
      else do
        let tail ← stringBytes turns
        pure (b :: tail)

/-- A string, from behind its opening quote. Whether its bytes are text is seen at its
    end; the place of a fragment is then counted back from there, a byte for each byte
    of the content from the fragment on. -/
def stringRest : Reader String := fun bs =>
  match stringBytes (bs.length + 1) bs with
  | .error e => .error e
  | .ok (content, rest) =>
    match Text.text? content with
    | .ok s => .ok (s, rest)
    | .error f => .error ⟨.notText, rest.length + (content.length - f.index)⟩

/-! ### Numbers -/

/-- Is the byte a decimal digit? -/
def isDigit (b : UInt8) : Bool := 0x30 ≤ b && b ≤ 0x39

/-- The value of a decimal digit. -/
def digitValue (b : UInt8) : Nat := b.toNat - 0x30

/-- Pass over the digits that come next, and count them. -/
def skipDigits : Reader Nat := fun bs =>
  .ok ((bs.takeWhile isDigit).length, bs.dropWhile isDigit)

/-- The largest whole number of 64 bits. -/
def maxNatural : Nat := 18446744073709551615

/-- Take digits into a whole number while it fits 64 bits: the number, how many digits
    were taken, and whether one was left because it did not fit. -/
def takeDigits : (n taken : Nat) → Bytes → (Nat × Nat × Bool) × Bytes
  | n, taken, [] => ((n, taken, false), [])
  | n, taken, b :: bs =>
    if isDigit b then
      if maxNatural < n * 10 + digitValue b then ((n, taken, true), b :: bs)
      else takeDigits (n * 10 + digitValue b) (taken + 1) bs
    else ((n, taken, false), b :: bs)

/-- Divide by 10^308 until the exponent is that of a power of ten that is a double,
    at most `turns` times; a few divisions bring any number of 64 bits to zero. -/
def scaleDown : (turns : Nat) → Decimal.Magnitude → (exponent : Nat) → Decimal.Magnitude
  | 0, _, _ => .zero
  | turns + 1, x, exponent =>
    if exponent ≤ 308 then x.div (.tenTo exponent)
    else if x.m = 0 then x
    else scaleDown turns (x.div (.tenTo 308)) (exponent - 308)

/-- The double for `n · 10^exponent`: both factors are rounded to doubles, and so is
    their product or quotient. Nothing stands for a number past the largest double. -/
def toMagnitude? (n : Nat) (exponent : Int) : Option Decimal.Magnitude :=
  let x := Decimal.Magnitude.ofNat n
  if exponent < 0 then some (scaleDown 4 x exponent.natAbs)
  else if n = 0 then some .zero
  else if 308 < exponent then none
  else
    let y := x.mul (.tenTo exponent.toNat)
    if y.isFinite then some y else none

/-- A double with the given sign, or a stop where it would be too large. -/
def double (negative : Bool) (n : Nat) (exponent : Int) : Reader Number :=
  match toMagnitude? n exponent with
  | some x => pure (.double ⟨negative, x⟩)
  | none => stop .numberTooLarge

/-- The largest exponent that is worked out; a larger one is only looked through. -/
def maxExponent : Nat := 2147483647

/-- Take the digits of an exponent: the exponent, or nothing where it grows past the
    largest that is worked out, behind the digit that shows it. -/
def takeExponent : (e : Nat) → Bytes → Option Nat × Bytes
  | e, [] => (some e, [])
  | e, b :: bs =>
    if isDigit b then
      if maxExponent < e * 10 + digitValue b then (none, bs)
      else takeExponent (e * 10 + digitValue b) bs
    else (some e, b :: bs)

/-- A number from its exponent mark on, given what stands before it. -/
def exponentPart (negative : Bool) (n : Nat) (exponent : Int) : Reader Number := do
  advance
  let sign ← peek
  if sign = some 0x2B ∨ sign = some 0x2D then advance
  let down := sign = some 0x2D
  match ← peek with
  | none => stop .endInValue
  | some b =>
    if isDigit b then fun bs =>
      match takeExponent 0 bs with
      | (some e, rest) => double negative n (if down then exponent - e else exponent + e) rest
      | (none, rest) =>
        if n ≠ 0 ∧ ¬down then stop .numberTooLarge rest
        else .ok (.double ⟨negative, .zero⟩, rest.dropWhile isDigit)
    else stopAtNext .badNumber

/-- What may follow the digits of a double: an exponent. -/
def afterDigits (negative : Bool) (n : Nat) (exponent : Int) : Reader Number := do
  match ← peek with
  | some b =>
    if b = 0x65 ∨ b = 0x45 then exponentPart negative n exponent else double negative n exponent
  | none => double negative n exponent

/-- A number from its point on, given the digits before it. Digits that no longer fit
    64 bits are passed over. -/
def fractionPart (negative : Bool) (n : Nat) (exponent : Int) : Reader Number := do
  advance
  let (m, taken, full) ← fun bs => .ok (takeDigits n 0 bs)
  if full then do
    discard skipDigits
    afterDigits negative m (exponent - taken)
  else if taken = 0 then do
    match ← peek with
    | some _ => stopAtNext .badNumber
    | none => stop .endInValue
  else afterDigits negative m (exponent - taken)

/-- How far below zero a number can be whole: 2^63. -/
def maxNegative : Nat := 9223372036854775808

/-- What may follow the digits of a whole number: a fraction or an exponent, and else
    the number ends. Below zero it is whole only down to -2^63, and -0 is a double. -/
def afterInteger (negative : Bool) (n : Nat) : Reader Number := do
  let b ← peek
  if b = some 0x2E then fractionPart negative n 0
  else if b = some 0x65 ∨ b = some 0x45 then exponentPart negative n 0
  else if ¬negative then pure (.natural n)
  else if 1 ≤ n ∧ n ≤ maxNegative then pure (.negative n)
  else double true n 0

/-- A whole number that does not fit 64 bits: the digits that are left only count. -/
def longInteger (negative : Bool) (n : Nat) : Reader Number := do
  let more ← skipDigits
  let b ← peek
  if b = some 0x2E then fractionPart negative n more else afterDigits negative n more

/-- A number, from behind its sign. -/
def numberRest (negative : Bool) : Reader Number := do
  match ← peek with
  | none => stop .endInValue
  | some b =>
    if b = 0x30 then do
      advance
      match ← peek with
      | some c => if isDigit c then stopAtNext .badNumber else afterInteger negative 0
      | none => afterInteger negative 0
    else if isDigit b then do
      let (n, _, full) ← fun bs => .ok (takeDigits 0 0 bs)
      if full then longInteger negative n else afterInteger negative n
    else stopAtNext .badNumber

end QueryClient.Json
