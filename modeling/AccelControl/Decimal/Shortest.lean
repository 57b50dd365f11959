import AccelControl.Decimal.Binary64

/-! The fewest decimal digits that read back as the same binary number.

Every number that rounds to `x` lies in an interval around `x`, whose ends belong to it if the
significand of `x` is even. For one digit, then two, and so on, the two neighbours of `x` with
that many digits are tried; the first that lie in the interval are taken, the nearer one of two.
Where both are equally near, which happens only if `x` itself ends in a five one place further, a
rule of the caller's chooses.
-/

set_option autoImplicit false

namespace AccelControl

inductive Tie where
  /-- The one with an even last digit. -/
  | toEven
  /-- The one of greater magnitude. -/
  | awayFromZero
  deriving DecidableEq, Repr

/-- Whether the upper one of two neighbours is taken, by the lower one's digits and by where the
number between them stands towards their middle. -/
def Tie.takesUpper (tie : Tie) (lower : Nat) : Ordering → Bool
  | .lt => false
  | .gt => true
  | .eq =>
    match tie with
    | .toEven => lower % 2 == 1
    | .awayFromZero => true

structure Scientific where
  digits : Nat
  exponent : Int
  deriving DecidableEq, Repr

namespace Binary64

/-- The interval of numbers that round to a positive number, all in units of `unit`:
`below / scale`, the number `middle / scale` itself, and `above / scale`. -/
structure Rounding where
  below : Nat
  middle : Nat
  above : Nat
  scale : Nat
  closed : Bool

/-- The rounding interval of a positive number's magnitude. The gap below a power of two is half
the gap above it, the least exponent excepted. -/
def rounding (x : Binary64) : Rounding :=
  let gap := if x.significand = Nat.pow 2 52 ∧ leastExponent < x.exponent then 1 else 2
  let power := Nat.pow 2 x.exponent.natAbs
  let (factor, scale) := if x.exponent < 0 then (1, 4 * power) else (power, 4)
  { below := (4 * x.significand - gap) * factor
    middle := 4 * x.significand * factor
    above := (4 * x.significand + 2) * factor
    scale
    closed := x.significand % 2 == 0 }

namespace Rounding

def contains (r : Rounding) (num den : Nat) : Bool :=
  if r.closed then r.below * den ≤ num * r.scale && num * r.scale ≤ r.above * den
  else r.below * den < num * r.scale && num * r.scale < r.above * den

def gridPoint (digits : Nat) (exponent : Int) : Nat × Nat :=
  if exponent < 0 then (digits, Nat.pow 10 exponent.natAbs)
  else (digits * Nat.pow 10 exponent.natAbs, 1)

/-- The number in the middle of the interval in units of `10 ^ exponent`, rounded down, and the
comparison of its two neighbours' distances: `lt` if the lower one is nearer. -/
def neighbour (r : Rounding) (exponent : Int) : Nat × Ordering :=
  let (num, den) :=
    if exponent < 0 then (r.middle * Nat.pow 10 exponent.natAbs, r.scale)
    else (r.middle, r.scale * Nat.pow 10 exponent.natAbs)
  (num / den, compare (2 * (num % den)) den)

/-- The neighbour of the middle on the grid of `10 ^ exponent` that lies in the interval, the
nearer one of two, the one that `tie` takes of two equally near. -/
def pick? (r : Rounding) (tie : Tie) (exponent : Int) : Option Nat :=
  let (lower, order) := r.neighbour exponent
  let fits (digits : Nat) : Bool :=
    let (num, den) := gridPoint digits exponent
    digits != 0 && r.contains num den
  if fits lower then
    if fits (lower + 1) && tie.takesUpper lower order then some (lower + 1) else some lower
  else if fits (lower + 1) then some (lower + 1)
  else none

/-- Try grids from `10 ^ exponent` down, each ten times finer than the one before. -/
def firstPick (r : Rounding) (tie : Tie) : Nat → Int → Scientific
  | 0, exponent => ⟨(r.neighbour exponent).1, exponent⟩
  | tries + 1, exponent =>
    match r.pick? tie exponent with
    | some digits => ⟨digits, exponent⟩
    | none => firstPick r tie tries (exponent - 1)

/-- An estimate of the decimal exponent of the number in the middle, from its binary one. It may
be larger by two, which costs tries on grids too coarse for a hit. -/
def leading (r : Rounding) : Int :=
  let bits : Int := (r.middle.log2 : Int) - (r.scale.log2 : Int) + 1
  bits * 30103 / 100000 + 1

end Rounding

/-- A number with its digits' trailing zeros moved into the exponent, at most `tries` of them. -/
def trimmed : Nat → Scientific → Scientific
  | 0, s => s
  | tries + 1, s =>
    if s.digits % 10 = 0 then trimmed tries ⟨s.digits / 10, s.exponent + 1⟩ else s

/-- The fewest digits that read back as the magnitude of a number other than zero. -/
def shortest (x : Binary64) (tie : Tie) : Scientific :=
  let r := x.rounding
  trimmed 20 (r.firstPick tie 20 r.leading)

end Binary64

end AccelControl
