import AccelControl.Json.Basic
import AccelControl.Json.Reader
import AccelControl.Text.Decimal

/-! Reading the numbers of JSON text.

The digits in front of the point and behind it are collected into one natural number below
`2 ^ 64`, as far as it reaches; the digits left over only scale it. The result is exact for integers
of 64 bits; a floating-point number is that natural number, rounded, and then scaled.
-/

set_option autoImplicit false

namespace AccelControl.Json

def isDigit (b : UInt8) : Bool := 0x30 ≤ b && b ≤ 0x39

def digitValue (b : UInt8) : Nat := b.toNat - 0x30

structure NumberParts where
  negative : Bool
  whole : Bytes
  fraction : Option Bytes
  exponent : Option (Bool × Bytes)
  deriving DecidableEq, Repr

def readDigits (s : Bytes) : Except Fault (Bytes × Bytes) :=
  match s with
  | [] => .error .unfinished
  | b :: _ =>
    if isDigit b then .ok (s.takeWhile isDigit, s.dropWhile isDigit) else .error .malformed

/-- Read the digits in front of the point. A zero stands alone. -/
def readIntegerPart (s : Bytes) : Except Fault (Bytes × Bytes) :=
  match readDigits s with
  | .error fault => .error fault
  | .ok (digits, rest) =>
    if digits.head? = some 0x30 ∧ 1 < digits.length then .error .malformed
    else .ok (digits, rest)

def readFraction (s : Bytes) : Except Fault (Option Bytes × Bytes) :=
  match s with
  | [] => .ok (none, [])
  | b :: rest =>
    if b = 0x2E then (readDigits rest).map fun (digits, rest) => (some digits, rest)
    else .ok (none, s)

def readExponentSign (s : Bytes) : Bool × Bytes :=
  match s with
  | [] => (false, [])
  | b :: rest => if b = 0x2D then (true, rest) else if b = 0x2B then (false, rest) else (false, s)

def readExponent (s : Bytes) : Except Fault (Option (Bool × Bytes) × Bytes) :=
  match s with
  | [] => .ok (none, [])
  | b :: rest =>
    if b = 0x65 ∨ b = 0x45 then
      let (negative, rest) := readExponentSign rest
      (readDigits rest).map fun (digits, rest) => (some (negative, digits), rest)
    else .ok (none, s)

def readSign (s : Bytes) : Bool × Bytes :=
  match s with
  | [] => (false, [])
  | b :: rest => if b = 0x2D then (true, rest) else (false, s)

def readMagnitude (negative : Bool) (s : Bytes) : Except Fault (NumberParts × Bytes) :=
  match readIntegerPart s with
  | .error fault => .error fault
  | .ok (whole, s) =>
    match readFraction s with
    | .error fault => .error fault
    | .ok (fraction, s) =>
      match readExponent s with
      | .error fault => .error fault
      | .ok (exponent, s) => .ok (⟨negative, whole, fraction, exponent⟩, s)

def readNumberParts (s : Bytes) : Except Fault (NumberParts × Bytes) :=
  readMagnitude (readSign s).1 (readSign s).2

/-- Append digits to a natural number while the result stays below `2 ^ 64`: the number reached,
how many digits went into it, and how many are left over. -/
def collect (n : Nat) : Bytes → Nat × Nat × Nat
  | [] => (n, 0, 0)
  | b :: digits =>
    if n * 10 + digitValue b < 0x10000000000000000 then
      let (total, taken, left) := collect (n * 10 + digitValue b) digits
      (total, taken + 1, left)
    else (n, 0, digits.length + 1)

/-- The integer of a sign and a magnitude, or the floating-point number nearest to it if there is
no such integer. Negative zero is no integer. -/
def Number.ofMagnitude (negative : Bool) (n : Nat) : Number :=
  if negative then
    match (if n = 0 then none else Integer.ofNegative? n) with
    | some i => .integer i
    | none => .float (.ofNat true n)
  else
    match Integer.ofNat? n with
    | some i => .integer i
    | none => .float (.ofNat false n)

/-- The number that parts denote; `none` if it is too large. -/
def NumberParts.number? (p : NumberParts) : Option Number :=
  let (whole, _, unread) := collect 0 p.whole
  if unread = 0 ∧ p.fraction = none ∧ p.exponent = none then
    some (.ofMagnitude p.negative whole)
  else
    let (digits, places, _) := collect whole (p.fraction.getD [])
    let power : Int :=
      match p.exponent with
      | none => 0
      | some (negative, digits) =>
        let n := Text.ofDigits (digits.map digitValue)
        if negative then -n else n
    ((Binary64.ofNat p.negative digits).scaledByTen? (unread - places + power)).map .float

def readNumber : Reader Number := fun s =>
  match readNumberParts s with
  | .error fault => .error fault
  | .ok (parts, s) =>
    match parts.number? with
    | some n => .ok (n, s)
    | none => .error .malformed

end AccelControl.Json
