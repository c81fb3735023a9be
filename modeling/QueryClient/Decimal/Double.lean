/-
  QueryClient/Decimal/Double.lean
  ===============================
  **Double-precision numbers**, by exact arithmetic on whole numbers.

  A finite magnitude is `m · 2^q`, with 53 bits for `m` except among the smallest
  magnitudes, which share the exponent `-1074`. An operation computes its exact
  result as a fraction and rounds once, to the nearest magnitude and from halfway to
  the even one.
-/

namespace QueryClient.Decimal

/-- The magnitude `m · 2^q`. -/
structure Magnitude where
  m : Nat
  q : Int
deriving DecidableEq, Repr

/-- The quotient rounded to the nearest whole number, from halfway to the even one. -/
def roundDiv (num den : Nat) : Nat :=
  let n := num / den
  let twice := 2 * (num % den)
  if twice < den then n
  else if den < twice then n + 1
  else if n % 2 = 0 then n else n + 1

/-- The power of two with an exponent, and 1 if the exponent is negative. -/
def powerOfTwo (e : Int) : Nat := Nat.pow 2 e.toNat

/-- The power of ten with an exponent, and 1 if the exponent is negative. -/
def powerOfTen (e : Int) : Nat := Nat.pow 10 e.toNat

namespace Magnitude

def zero : Magnitude := ⟨0, -1074⟩

/-- The largest exponent of a finite magnitude. -/
def topExponent : Int := 971

/-- Is the magnitude small enough for a finite number? -/
def isFinite (x : Magnitude) : Bool := x.q ≤ topExponent

/-- The exponent of the highest bit of a positive fraction. -/
def highBit (num den : Nat) : Int :=
  let l : Int := (num.log2 : Int) - den.log2
  if num * powerOfTwo (-l) < den * powerOfTwo l then l - 1 else l

/-- The magnitude nearest to a fraction. -/
def ofFraction (num den : Nat) : Magnitude :=
  if num = 0 then zero
  else
    let q := max (highBit num den - 52) (-1074)
    let m := roundDiv (num * powerOfTwo (-q)) (den * powerOfTwo q)
    if m = powerOfTwo 53 then ⟨powerOfTwo 52, q + 1⟩ else ⟨m, q⟩

/-- The magnitude nearest to a whole number. -/
def ofNat (n : Nat) : Magnitude := ofFraction n 1

/-- The magnitude as a fraction: the numerator. -/
def num (x : Magnitude) : Nat := x.m * powerOfTwo x.q

/-- The magnitude as a fraction: the denominator. -/
def den (x : Magnitude) : Nat := powerOfTwo (-x.q)

def mul (x y : Magnitude) : Magnitude := ofFraction (x.num * y.num) (x.den * y.den)

/-- The rounded quotient by a magnitude other than zero. -/
def div (x y : Magnitude) : Magnitude := ofFraction (x.num * y.den) (x.den * y.num)

/-- The magnitude nearest to a power of ten. -/
def tenTo (e : Nat) : Magnitude := ofNat (powerOfTen e)

end Magnitude

/-- A finite number: a sign and a magnitude. Zero has a sign too. -/
structure Double where
  negative : Bool
  magnitude : Magnitude
deriving DecidableEq, Repr

end QueryClient.Decimal
