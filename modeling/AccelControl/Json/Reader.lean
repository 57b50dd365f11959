import AccelControl.Schema.Mismatch
import AccelControl.Text.Utf8

/-! Readers of JSON text.

A reader takes what it reads from the front of a byte sequence and returns the rest. It tells a
text that ended too early from one that no continuation can mend, and both from text that is well
formed but not of the expected shape.
-/

set_option autoImplicit false

namespace AccelControl.Json

inductive Fault where
  /-- The text ended inside a value, or before one. -/
  | unfinished
  /-- The text is not JSON. -/
  | malformed
  /-- The text is well formed so far, but not what was expected. -/
  | mismatch (m : Mismatch)
  deriving DecidableEq, Repr

abbrev Reader (α : Type) := Bytes → Except Fault (α × Bytes)

/-- Blank, line feed, carriage return and tab may stand between the parts of a text. -/
def isSpace (b : UInt8) : Bool :=
  b == 0x20 || b == 0x0A || b == 0x0D || b == 0x09

def skipSpace (s : Bytes) : Bytes :=
  s.dropWhile isSpace

@[simp] theorem skipSpace_nil : skipSpace [] = [] := rfl

/-- White space is passed over once only. -/
theorem skipSpace_skipSpace (s : Bytes) : skipSpace (skipSpace s) = skipSpace s := by
  induction s with
  | nil => rfl
  | cons b s ih =>
    by_cases h : isSpace b = true
    · simpa [skipSpace, List.dropWhile, h] using ih
    · simp [skipSpace, List.dropWhile, h]

def readWord : Bytes → Bytes → Except Fault Bytes
  | [], s => .ok s
  | _ :: _, [] => .error .unfinished
  | b :: word, c :: s => if b = c then readWord word s else .error .malformed

inductive Next where
  /-- The closing bracket, and the text behind it. -/
  | closed (rest : Bytes)
  /-- The text from the next item on. -/
  | item (s : Bytes)
  deriving DecidableEq, Repr

/-- Step to the next item or behind the closing bracket. All items but the first stand behind a
comma, and a comma is not followed by the closing bracket. -/
def next (close : UInt8) (first : Bool) (s : Bytes) : Except Fault Next :=
  match skipSpace s with
  | [] => .error .unfinished
  | b :: s =>
    if b = close then .ok (.closed s)
    else if first then .ok (.item (b :: s))
    else if b = 0x2C then
      match skipSpace s with
      | [] => .error .unfinished
      | b :: s => if b = close then .error .malformed else .ok (.item (b :: s))
    else .error .malformed

/-- Read items up to the closing bracket of an array, at most `bound` of them, on top of those
read before, last first. The length of the text bounds the number of its items. -/
def readItems {α : Type} (item : Reader α) : Nat → Bool → List α → Reader (List α)
  | 0, _, _, _ => .error .unfinished
  | bound + 1, first, items, s =>
    match next 0x5D first s with
    | .error fault => .error fault
    | .ok (.closed s) => .ok (items.reverse, s)
    | .ok (.item s) =>
      match item s with
      | .error fault => .error fault
      | .ok (value, s) => readItems item bound false (value :: items) s

def readQuote : Bytes → Except Fault Bytes
  | [] => .error .unfinished
  | b :: s => if b = 0x22 then .ok s else .error .malformed

def readColon (s : Bytes) : Except Fault Bytes :=
  match skipSpace s with
  | [] => .error .unfinished
  | b :: s => if b = 0x3A then .ok s else .error .malformed

/-- Read members up to the closing bracket of an object, at most `bound` of them. The text of a
member behind its name is read by `member`, which takes the state so far and the name. -/
def readMembers {σ : Type} (name : Reader String) (member : σ → String → Reader σ) :
    Nat → Bool → σ → Reader σ
  | 0, _, _, _ => .error .unfinished
  | bound + 1, first, state, s =>
    match next 0x7D first s with
    | .error fault => .error fault
    | .ok (.closed s) => .ok (state, s)
    | .ok (.item s) =>
      match readQuote s with
      | .error fault => .error fault
      | .ok s =>
        match name s with
        | .error fault => .error fault
        | .ok (key, s) =>
          match member state key s with
          | .error fault => .error fault
          | .ok (state, s) => readMembers name member bound false state s

end AccelControl.Json
