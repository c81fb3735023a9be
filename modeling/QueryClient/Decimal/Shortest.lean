/-
  QueryClient/Decimal/Shortest.lean
  =================================
  **The shortest decimal that reads back.** The decimals that round to a magnitude
  fill an interval around it, which reaches halfway to both neighbours; its ends
  belong to it if `m` is even, since halfway goes to the even side. Of the decimals in
  the interval one with the fewest digits is chosen, and of those the one nearest to
  the magnitude.

  Below a power of two the neighbour is half as far away as above it, so there the
  interval is narrower on the lower side.
-/
import QueryClient.Decimal.Double

namespace QueryClient.Decimal

/-- The decimal `digits · 10^exponent`. -/
structure Digits where
  digits : Nat
  exponent : Int
deriving DecidableEq, Repr

namespace Magnitude

/-- Is the neighbour below half as far away as the one above? -/
def narrowBelow (x : Magnitude) : Bool := x.m = powerOfTwo 52 ∧ -1074 < x.q

/-- Compare `n · 2^j` with a decimal. -/
def compareScaled (n : Nat) (j : Int) (d : Digits) : Ordering :=
  compare (n * powerOfTwo j * powerOfTen (-d.exponent))
    (d.digits * powerOfTen d.exponent * powerOfTwo (-j))

/-- Does the decimal lie in the interval that rounds to the magnitude? The ends of the
    interval are taken in quarters of the last place. -/
def readsBack (x : Magnitude) (d : Digits) : Bool :=
  let low := compareScaled (if x.narrowBelow then 4 * x.m - 1 else 4 * x.m - 2) (x.q - 2) d
  let high := compareScaled (4 * x.m + 2) (x.q - 2) d
  let closed := x.m % 2 = 0
  (low == .lt || closed && low == .eq) && (high == .gt || closed && high == .eq)

/-- The least `k` with the magnitude below `10^k`, for a magnitude other than zero.
    The estimate from the binary logarithm is never too large, and at most one too
    small. -/
def scale (x : Magnitude) : Int :=
  let bits : Int := x.m.log2 + x.q
  let estimate := bits * 30103 / 100000
  let below (k : Int) : Bool := compareScaled x.m x.q ⟨1, k⟩ == .lt
  if below estimate then estimate
  else if below (estimate + 1) then estimate + 1
  else estimate + 2

/-- The better of the two decimals next to the magnitude on the grid of multiples of
    `10^e`, if one of them reads back; the even one where both are equally near. -/
def onGrid? (x : Magnitude) (e : Int) : Option Digits :=
  let below := x.num * powerOfTen (-e) / (x.den * powerOfTen e)
  let down : Digits := ⟨below, e⟩
  let up : Digits := ⟨below + 1, e⟩
  match x.readsBack down, x.readsBack up with
  | true, false => some down
  | false, true => some up
  | false, false => none
  | true, true =>
    match compareScaled (2 * x.m) x.q ⟨2 * below + 1, e⟩ with
    | .lt => some down
    | .gt => some up
    | .eq => some (if below % 2 = 0 then down else up)

/-- Drop zeros from the end of the digits, at most `room` of them. -/
def stripZeros : (room : Nat) → Digits → Digits
  | 0, d => d
  | room + 1, d => if d.digits % 10 = 0 then stripZeros room ⟨d.digits / 10, d.exponent + 1⟩ else d

/-- The shortest decimal that reads back as a magnitude other than zero. Seventeen
    digits are always enough. -/
def shortest (x : Magnitude) : Digits :=
  let k := x.scale
  match (List.range 17).findSome? fun (n : Nat) => x.onGrid? (k - (n + 1 : Nat)) with
  | some d => stripZeros 20 d
  | none => ⟨x.num, 0⟩

end Magnitude

/-! ### Notation -/

/-- The digits of a decimal as text, and how many of them stand before the point. -/
def pointed (d : Digits) : List Char × Int :=
  let ds := Nat.toDigits 10 d.digits
  (ds, ds.length + d.exponent)

/-- The text of a number: positional from 0.00001 up to below 10^16, and with a signed
    exponent outside; a positional number always has a digit after the point. -/
def Double.text (x : Double) : String :=
  let sign := if x.negative then "-" else ""
  if x.magnitude.m = 0 then sign ++ "0.0"
  else
    let (ds, point) := pointed x.magnitude.shortest
    let body : List Char :=
      if ds.length ≤ point ∧ point ≤ 16 then
        ds ++ List.replicate (point - ds.length).toNat '0' ++ ['.', '0']
      else if 0 < point ∧ point ≤ 16 then ds.take point.toNat ++ '.' :: ds.drop point.toNat
      else if -5 < point ∧ point ≤ 0 then
        ['0', '.'] ++ List.replicate (-point).toNat '0' ++ ds
      else
        let exponent := point - 1
        let mantissa := match ds with
          | [] => []
          | [c] => [c]
          | c :: cs => c :: '.' :: cs
        mantissa ++ 'e' :: (if exponent < 0 then '-' else '+') :: Nat.toDigits 10 exponent.natAbs
    sign ++ String.ofList body

end QueryClient.Decimal
