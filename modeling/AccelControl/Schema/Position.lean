import AccelControl.Text.Decimal

/-! Positions at the ends of descriptions.

A description may end with the line and the column of the text it speaks of. They are read off and
written anew, without leading zeros; line zero stands for no position.
-/

set_option autoImplicit false

namespace AccelControl

/-- Read a natural number below `2 ^ 64`, digits alone. -/
def positionNumber? (digits : List Char) : Option Nat :=
  if digits.isEmpty ∨ ¬digits.all Char.isDigit then none
  else
    let n := Text.ofDigits (digits.map fun c => c.toNat - 0x30)
    if n < 0x10000000000000000 then some n else none

def positionNumbers? (s : List Char) : Option (Nat × Nat) :=
  let middle := " column ".toList
  let line := s.takeWhile Char.isDigit
  let rest := s.dropWhile Char.isDigit
  if middle.isPrefixOf rest then
    match positionNumber? line, positionNumber? (rest.drop middle.length) with
    | some line, some column => some (line, column)
    | _, _ => none
  else none

def splitLast? (mark : List Char) : List Char → Option (List Char × List Char)
  | [] => if mark.isEmpty then some ([], []) else none
  | c :: s =>
    match splitLast? mark s with
    | some (front, back) => some (c :: front, back)
    | none => if mark.isPrefixOf (c :: s) then some ([], (c :: s).drop mark.length) else none

def withPosition (description : String) : String :=
  match splitLast? " at line ".toList description.toList with
  | none => description
  | some (front, back) =>
    match positionNumbers? back with
    | none => description
    | some (line, column) =>
      if line = 0 then String.ofList front
      else String.ofList (front ++ " at line ".toList ++ Text.decimal line ++ " column ".toList
        ++ Text.decimal column)

end AccelControl
