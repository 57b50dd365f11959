import AccelControl.Json.Token

/-! Reading whole JSON values.

Values may nest to a fixed depth. Of a name that occurs twice in an object the last value counts.
-/

set_option autoImplicit false

namespace AccelControl.Json

/-- How many arrays and objects may lie inside one another. -/
def greatestDepth : Nat := 127

def readMember (part : Reader Json) (members : Members Json) (name : String) :
    Reader (Members Json) := fun s =>
  match readColon s with
  | .error fault => .error fault
  | .ok s =>
    match part s with
    | .error fault => .error fault
    | .ok (value, s) => .ok (members.insert name value, s)

def readValueWith (number : Reader Number) (bound : Nat) (part : Option (Reader Json)) :
    Reader Json := fun s =>
  match readTokenWith number s with
  | .error fault => .error fault
  | .ok (.null, s) => .ok (.null, s)
  | .ok (.bool b, s) => .ok (.bool b, s)
  | .ok (.number n, s) => .ok (.number n, s)
  | .ok (.string text, s) => .ok (.string text, s)
  | .ok (.openArray, s) =>
    match part with
    | none => .error .malformed
    | some part =>
      match readItems part bound true [] s with
      | .error fault => .error fault
      | .ok (items, s) => .ok (.array items, s)
  | .ok (.openObject, s) =>
    match part with
    | none => .error .malformed
    | some part =>
      match readMembers readString (readMember part) bound true [] s with
      | .error fault => .error fault
      | .ok (members, s) => .ok (.object members, s)

/-- Read a value that nests at most `depth` deep, of a text no longer than `bound`. -/
def readValueFrom (number : Reader Number) (bound : Nat) : (depth : Nat) → Reader Json
  | 0 => readValueWith number bound none
  | depth + 1 => readValueWith number bound (some (readValueFrom number bound depth))

def readValueBy (number : Reader Number) : Reader Json := fun s =>
  readValueFrom number (s.length + 1) greatestDepth s

def readValue : Reader Json := readValueBy readNumber

def readAll {α : Type} (read : Reader α) (s : Bytes) : Except Fault α :=
  match read s with
  | .error fault => .error fault
  | .ok (value, rest) => if skipSpace rest = [] then .ok value else .error .malformed

def parse (s : Bytes) : Except Fault Json := readAll readValue s

end AccelControl.Json
