import AccelControl.Json.NumberReader
import AccelControl.Json.StringReader

/-! The first token of a value, which tells what kind of value follows. -/

set_option autoImplicit false

namespace AccelControl.Json

/-- A value without parts, or the opening bracket of one with parts. -/
inductive Token where
  | null
  | bool (b : Bool)
  | number (n : Number)
  | string (s : String)
  | openArray
  | openObject
  deriving DecidableEq, Repr

/-- Read the first token of a value, behind white space. Numbers are read by `number`. -/
def readTokenWith (number : Reader Number) : Reader Token := fun s =>
  match skipSpace s with
  | [] => .error .unfinished
  | b :: s =>
    if b = 0x6E then (readWord [0x75, 0x6C, 0x6C] s).map (.null, ·)
    else if b = 0x74 then (readWord [0x72, 0x75, 0x65] s).map (.bool true, ·)
    else if b = 0x66 then (readWord [0x61, 0x6C, 0x73, 0x65] s).map (.bool false, ·)
    else if b = 0x22 then (readString s).map fun (text, s) => (.string text, s)
    else if b = 0x5B then .ok (.openArray, s)
    else if b = 0x7B then .ok (.openObject, s)
    else if b = 0x2D ∨ isDigit b then (number (b :: s)).map fun (n, s) => (.number n, s)
    else .error .malformed

def readToken : Reader Token := readTokenWith readNumber

end AccelControl.Json
