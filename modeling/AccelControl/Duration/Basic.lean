import AccelControl.Text.Decimal

/-! Spans of time in whole nanoseconds. -/

set_option autoImplicit false

namespace AccelControl

/-- A span of time: whole seconds in 64 bits, and the nanoseconds of a broken second. -/
structure Duration where
  seconds : Nat
  nanos : Nat
  seconds_lt : seconds < 0x10000000000000000
  nanos_lt : nanos < 1000000000
  deriving DecidableEq, Repr

namespace Duration

/-- The span of some seconds and nanoseconds, if its seconds fit. A full second of nanoseconds is
carried over. -/
def ofParts? (seconds nanos : Nat) : Option Duration :=
  if h : seconds + nanos / 1000000000 < 0x10000000000000000 then
    some ⟨seconds + nanos / 1000000000, nanos % 1000000000, h, Nat.mod_lt _ (by decide)⟩
  else none

def zero : Duration := ⟨0, 0, by decide, by decide⟩

def isZero (d : Duration) : Bool := d.seconds == 0 && d.nanos == 0

def minute : Duration := ⟨60, 0, by decide, by decide⟩

/-- `whole` units and a fraction of `places` decimal places, whose trailing zeros are dropped. -/
def fixedText (whole places fraction : Nat) (unit : List Char) : List Char :=
  let digits := ((Text.padded places fraction).reverse.dropWhile (· == '0')).reverse
  Text.decimal whole ++ (if digits.isEmpty then [] else '.' :: digits) ++ unit

/-- The span in the largest of seconds, milli-, micro- and nanoseconds of which it has one. -/
def text (d : Duration) : String :=
  String.ofList <|
    if 0 < d.seconds then fixedText d.seconds 9 d.nanos ['s']
    else if 1000000 ≤ d.nanos then fixedText (d.nanos / 1000000) 6 (d.nanos % 1000000) ['m', 's']
    else if 1000 ≤ d.nanos then fixedText (d.nanos / 1000) 3 (d.nanos % 1000) ['µ', 's']
    else fixedText d.nanos 0 0 ['n', 's']

end Duration

end AccelControl
