import AccelControl.Toml.Lexical

/-! The numbers of TOML text. -/

set_option autoImplicit false

namespace AccelControl.Toml

def isDigit (c : Char) : Bool := '0' ≤ c && c ≤ '9'

/-- Read digits that `accept` knows, on top of those read before, last first. A single underscore
may stand between two digits; `separated` tells whether one was read last. -/
def readDigitsFrom (accept : Char → Option Nat) : Bool → List Nat → Reader (List Nat)
  | separated, done, [] => if separated ∨ done.isEmpty then none else some (done.reverse, [])
  | separated, done, c :: s =>
    match accept c with
    | some digit => readDigitsFrom accept false (digit :: done) s
    | none =>
      if c = '_' ∧ ¬separated ∧ ¬done.isEmpty then readDigitsFrom accept true done s
      else if separated ∨ done.isEmpty then none
      else some (done.reverse, c :: s)

def readDigits (accept : Char → Option Nat) (s : List Char) : Option (List Nat × List Char) :=
  readDigitsFrom accept false [] s

def digitOf (base : Nat) (c : Char) : Option Nat :=
  (Text.hexDigit? c).filter (· < base)

def readSign : List Char → (Bool × Bool) × List Char
  | '-' :: s => ((true, true), s)
  | '+' :: s => ((true, false), s)
  | s => ((false, false), s)

def int64? (i : Int) : Option Int :=
  if -0x8000000000000000 ≤ i ∧ i < 0x8000000000000000 then some i else none

/-- Read the decimal digits in front of the point. A zero stands alone. -/
def readWhole (s : List Char) : Option (List Nat × List Char) := do
  let (digits, rest) ← readDigits (digitOf 10) s
  if digits.head? = some 0 ∧ 1 < digits.length then none else some (digits, rest)

/-- Read an integer in base 16, 8 or 2 behind its mark. -/
def readBased (base : Nat) (s : List Char) : Option (Value × List Char) := do
  let (digits, rest) ← readDigits (digitOf base) s
  let i ← int64? (Text.digitsFrom base 0 digits)
  some (.integer i, rest)

def readExponent (s : List Char) : Option (Int × List Char) := do
  let ((_, negative), s) := readSign s
  let (digits, rest) ← readDigits (digitOf 10) s
  let n : Int := Text.ofDigits digits
  some (if negative then -n else n, rest)

/-- The floating-point number nearest to `digits · 10 ^ power`. Powers that are far too large or
too small are not computed. Positive numbers may not be too large; negative ones become infinite. -/
def floatOf? (negative : Bool) (digits : List Nat) (power : Int) : Option FloatValue :=
  let n := Text.ofDigits digits
  let leading : Int := digits.length + power
  let rounded : Option Binary64 :=
    if n = 0 ∨ leading < -400 then some (.zero negative)
    else if (400 : Int) + digits.length < leading then none
    else if power < 0 then Binary64.ofRatio? negative n (Nat.pow 10 power.natAbs)
    else Binary64.ofRatio? negative (n * Nat.pow 10 power.natAbs) 1
  match rounded with
  | some x => some (.finite x)
  | none => if negative then some (.infinite true) else none

/-- Read a decimal number from its sign on. With a fraction or an exponent it is a floating-point
number. -/
def readDecimal (s : List Char) : Option (Value × List Char) := do
  let ((_, negative), s) := readSign s
  let (whole, s) ← readWhole s
  let (fraction, s) ←
    match s with
    | '.' :: s => (readDigits (digitOf 10) s).map fun (digits, s) => (some digits, s)
    | s => some (none, s)
  let (exponent, s) ←
    match s with
    | 'e' :: s | 'E' :: s => (readExponent s).map fun (power, s) => (some power, s)
    | s => some (none, s)
  if fraction.isNone ∧ exponent.isNone then
    let n : Int := Text.ofDigits whole
    let i ← int64? (if negative then -n else n)
    some (.integer i, s)
  else
    let places := fraction.getD []
    let x ← floatOf? negative (whole ++ places) (exponent.getD 0 - places.length)
    some (.float x, s)

def readSpecial (negative : Bool) : List Char → Option (Value × List Char)
  | 'i' :: 'n' :: 'f' :: s => some (.float (.infinite negative), s)
  | 'n' :: 'a' :: 'n' :: s => some (.float .nan, s)
  | _ => none

def readNumber (s : List Char) : Option (Value × List Char) :=
  match s with
  | '0' :: 'x' :: rest => readBased 16 rest
  | '0' :: 'o' :: rest => readBased 8 rest
  | '0' :: 'b' :: rest => readBased 2 rest
  | _ =>
    let ((_, negative), rest) := readSign s
    match rest with
    | 'i' :: _ | 'n' :: _ => readSpecial negative rest
    | _ => readDecimal s

end AccelControl.Toml
