import AccelControl.Decimal.Shortest
import AccelControl.Text.Decimal

/-! Writing a binary number in its shortest decimal digits.

A layout says which numbers are written positionally, and which digits are written where two
choices are equally near. Numbers that are not written positionally have one digit before the point
and an exponent with its sign. Every positional form has a point with a digit on either side.
-/

set_option autoImplicit false

namespace AccelControl

structure FloatLayout where
  /-- Whether a number is written positionally, by the decimal exponent of its leading digit. -/
  positional : Int → Bool
  /-- Which one of two equally near shortest decimals is written. -/
  tie : Tie

namespace FloatLayout

/-- Every number is written positionally, and ties go away from zero. -/
def plain : FloatLayout := ⟨fun _ => true, .awayFromZero⟩

def positionalText (digits : List Char) (exponent : Int) : List Char :=
  if 0 ≤ exponent then digits ++ List.replicate exponent.natAbs '0' ++ ['.', '0']
  else
    let places := exponent.natAbs
    if places < digits.length then
      digits.take (digits.length - places) ++ '.' :: digits.drop (digits.length - places)
    else ['0', '.'] ++ List.replicate (places - digits.length) '0' ++ digits

def exponentText (digits : List Char) (leading : Int) : List Char :=
  let mantissa :=
    match digits with
    | first :: second :: rest => first :: '.' :: second :: rest
    | short => short
  mantissa ++ 'e' :: (if 0 ≤ leading then '+' else '-') :: Text.decimal leading.natAbs

def text (layout : FloatLayout) (x : Binary64) : List Char :=
  let sign := if x.negative then ['-'] else []
  if x.isZero then sign ++ ['0', '.', '0']
  else
    let s := x.shortest layout.tie
    let digits := Text.decimal s.digits
    let leading := s.exponent + digits.length - 1
    sign ++
      if layout.positional leading then positionalText digits s.exponent
      else exponentText digits leading

end FloatLayout

end AccelControl
