/-! Natural numbers in decimal digits. -/

set_option autoImplicit false

namespace AccelControl.Text

def decimal (n : Nat) : List Char :=
  Nat.toDigits 10 n

def signedDecimal (i : Int) : List Char :=
  if i < 0 then '-' :: decimal i.natAbs else decimal i.natAbs

def padded (width n : Nat) : List Char :=
  let digits := decimal n
  List.replicate (width - digits.length) '0' ++ digits

/-- The natural number that digits denote in a base, going on from `start`. -/
def digitsFrom (base start : Nat) (digits : List Nat) : Nat :=
  digits.foldl (fun n d => n * base + d) start

def ofDigits (digits : List Nat) : Nat :=
  digitsFrom 10 0 digits

def hexDigit? (c : Char) : Option Nat :=
  if '0' ≤ c ∧ c ≤ '9' then some (c.toNat - 0x30)
  else if 'a' ≤ c ∧ c ≤ 'f' then some (c.toNat - 0x61 + 10)
  else if 'A' ≤ c ∧ c ≤ 'F' then some (c.toNat - 0x41 + 10)
  else none

end AccelControl.Text
