import AccelControl.Toml.Lexical

/-! The dates and times of TOML text. -/

set_option autoImplicit false

namespace AccelControl.Toml

def readFixed : (width : Nat) → Nat → Reader Nat
  | 0, n, s => some (n, s)
  | _ + 1, _, [] => none
  | width + 1, n, c :: s =>
    if '0' ≤ c ∧ c ≤ '9' then readFixed width (n * 10 + (c.toNat - 0x30)) s else none

def readBounded (width lowest highest : Nat) (s : List Char) : Option (Nat × List Char) :=
  (readFixed width 0 s).filter fun (n, _) => lowest ≤ n ∧ n ≤ highest

def readChar (c : Char) : List Char → Option (List Char)
  | d :: s => if c = d then some s else none
  | [] => none

def isLeap (year : Nat) : Bool := year % 4 == 0 && (year % 100 != 0 || year % 400 == 0)

def daysIn (year month : Nat) : Nat :=
  if month = 2 then (if isLeap year then 29 else 28)
  else if month = 4 ∨ month = 6 ∨ month = 9 ∨ month = 11 then 30
  else 31

def skipDate (s : List Char) : Option (List Char) := do
  let (year, s) ← readFixed 4 0 s
  let s ← readChar '-' s
  let (month, s) ← readBounded 2 1 12 s
  let s ← readChar '-' s
  let (_, s) ← readBounded 2 1 (daysIn year month) s
  some s

def skipFraction (s : List Char) : List Char :=
  match s with
  | '.' :: rest =>
    let digits := rest.takeWhile Char.isDigit
    if digits.isEmpty then s else rest.dropWhile Char.isDigit
  | _ => s

/-- Pass over a time of day. The second before midnight may be a leap second. -/
def skipTime (s : List Char) : Option (List Char) := do
  let (_, s) ← readBounded 2 0 23 s
  let s ← readChar ':' s
  let (_, s) ← readBounded 2 0 59 s
  let s ← readChar ':' s
  let (_, s) ← readBounded 2 0 60 s
  some (skipFraction s)

def skipOffset (s : List Char) : Option (List Char) :=
  match s with
  | 'Z' :: s | 'z' :: s => some s
  | '+' :: s | '-' :: s => do
    let (_, s) ← readBounded 2 0 23 s
    let s ← readChar ':' s
    let (_, s) ← readBounded 2 0 59 s
    some s
  | _ => none

def skipTimeOfDate (s : List Char) : List Char :=
  match s with
  | 'T' :: rest | 't' :: rest | ' ' :: rest =>
    match skipTime rest with
    | some rest => (skipOffset rest).getD rest
    | none => s
  | _ => s

def readMoment (s : List Char) : Option (Value × List Char) :=
  let rest := ((skipDate s).map skipTimeOfDate).or (skipTime s)
  rest.map fun rest => (.moment (String.ofList (s.take (s.length - rest.length))), rest)

end AccelControl.Toml
