/-! Finite binary floating-point numbers with 53 significant bits.

A number is kept as sign, significand and exponent, so that all arithmetic on it is exact
arithmetic on natural numbers followed by one rounding.
-/

set_option autoImplicit false

namespace AccelControl

/-- The number `significand · 2 ^ exponent`, negated if `negative`. Both zeros exist. -/
structure Binary64 where
  negative : Bool
  significand : Nat
  exponent : Int
  deriving DecidableEq, Repr

/-- The quotient of two natural numbers, rounded to the nearest natural number, ties to even. -/
def roundQuotient (num den : Nat) : Nat :=
  let quotient := num / den
  let remainder := num % den
  if 2 * remainder < den then quotient
  else if den < 2 * remainder then quotient + 1
  else if quotient % 2 = 0 then quotient
  else quotient + 1

namespace Binary64

def leastExponent : Int := -1074

def greatestExponent : Int := 971

def zero (negative : Bool) : Binary64 :=
  ⟨negative, 0, leastExponent⟩

/-- `num / den` in units of `2 ^ exponent`, as a numerator and a denominator. -/
def scaled (num den : Nat) (exponent : Int) : Nat × Nat :=
  if exponent < 0 then (num * Nat.pow 2 exponent.natAbs, den)
  else (num, den * Nat.pow 2 exponent.natAbs)

/-- The exponent at which `num / den` has 53 significant bits, or the least one there is. -/
def exponentOf (num den : Nat) : Int :=
  let guess : Int := (num.log2 : Int) - (den.log2 : Int) - 52
  let (n, d) := scaled num den guess
  let exponent := if n < d * Nat.pow 2 52 then guess - 1 else guess
  max exponent leastExponent

/-- The number nearest to `num / den`, ties to an even significand; `none` if it is too large. -/
def ofRatio? (negative : Bool) (num den : Nat) : Option Binary64 :=
  if num = 0 then some (zero negative)
  else
    let exponent := exponentOf num den
    let (n, d) := scaled num den exponent
    let significand := roundQuotient n d
    let (significand, exponent) :=
      if significand = Nat.pow 2 53 then (Nat.pow 2 52, exponent + 1) else (significand, exponent)
    if greatestExponent < exponent then none else some ⟨negative, significand, exponent⟩

def ratio (x : Binary64) : Nat × Nat :=
  if x.exponent < 0 then (x.significand, Nat.pow 2 x.exponent.natAbs)
  else (x.significand * Nat.pow 2 x.exponent.natAbs, 1)

def ofNat (negative : Bool) (n : Nat) : Binary64 :=
  (ofRatio? negative n 1).getD (zero negative)

/-- The number nearest to `10 ^ k`, for `k` up to 308. -/
def powerOfTen (k : Nat) : Binary64 :=
  ofNat false (Nat.pow 10 k)

def times? (x y : Binary64) : Option Binary64 :=
  let (xn, xd) := x.ratio
  let (yn, yd) := y.ratio
  ofRatio? (x.negative != y.negative) (xn * yn) (xd * yd)

def over? (x y : Binary64) : Option Binary64 :=
  let (xn, xd) := x.ratio
  let (yn, yd) := y.ratio
  ofRatio? (x.negative != y.negative) (xn * yd) (xd * yn)

def isZero (x : Binary64) : Bool :=
  x.significand == 0

/-- Divide by `10 ^ 308` that many times, or until nothing is left. -/
def lowered : Nat → Binary64 → Binary64
  | 0, x => x
  | steps + 1, x =>
    if x.isZero then x else lowered steps ((x.over? (powerOfTen 308)).getD (zero x.negative))

/-- Scale by a power of ten in steps of at most `10 ^ 308`, rounding after each; `none` if the
result is too large. -/
def scaledByTen? (x : Binary64) (power : Int) : Option Binary64 :=
  if 0 ≤ power then
    if x.isZero then some x
    else if power ≤ 308 then x.times? (powerOfTen power.natAbs)
    else none
  else
    let steps := (power.natAbs - 1) / 308
    (lowered steps x).over? (powerOfTen (power.natAbs - 308 * steps))

end Binary64

end AccelControl
