import AccelControl.Json.Printer
import AccelControl.Json.ValueReader

/-! Expected shapes of JSON data.

A schema reads its type in two ways: from a JSON value, and directly from text in one pass. The
second way sees the members of an object in the order of the text, and it stops at the first byte
or part that does not fit.
-/

set_option autoImplicit false

namespace AccelControl

namespace Json

def Token.found : Token → Found
  | .null => .null
  | .bool b => .bool b
  | .number (.integer i) => .integer i.value
  | .number (.float x) => .float (String.ofList (floatLayout.text x))
  | .string s => .string s
  | .openArray => .sequence
  | .openObject => .map

def token : Json → Token
  | .null => .null
  | .bool b => .bool b
  | .number n => .number n
  | .string s => .string s
  | .array _ => .openArray
  | .object _ => .openObject

def found (v : Json) : Found := v.token.found

end Json

open Json (Token Reader Fault)

/-- A shape of JSON data that holds an `α`. -/
structure Schema (α : Type) where
  /-- Read a value. -/
  ofJson : Json → Except Mismatch α
  /-- Read the front of a text. -/
  ofText : Reader α

namespace Schema

variable {α β : Type}

def map (f : α → β) (schema : Schema α) : Schema β where
  ofJson v := (schema.ofJson v).map f
  ofText s := (schema.ofText s).map fun (a, rest) => (f a, rest)

def scalar (accept : Token → Except Mismatch α) : Schema α where
  ofJson v := accept v.token
  ofText s :=
    match Json.readToken s with
    | .error fault => .error fault
    | .ok (token, s) =>
      match accept token with
      | .error m => .error (.mismatch m)
      | .ok a => .ok (a, s)

def integer (lowest highest : Int) (expected : String) : Schema Int :=
  scalar fun
    | .number (.integer i) =>
      if lowest ≤ i.value ∧ i.value ≤ highest then .ok i.value
      else .error (.value (.integer i.value) expected)
    | token => .error (.kind token.found expected)

def word16 : Schema UInt16 :=
  (integer 0 0xFFFF "u16").map fun i => UInt16.ofNat i.toNat

def word32 : Schema UInt32 :=
  (integer 0 0xFFFFFFFF "u32").map fun i => UInt32.ofNat i.toNat

def count : Schema UInt64 :=
  (integer 0 0xFFFFFFFFFFFFFFFF "usize").map fun i => UInt64.ofNat i.toNat

def int64 : Schema Int64 :=
  (integer (-0x8000000000000000) 0x7FFFFFFFFFFFFFFF "i64").map Int64.ofInt

def bool : Schema Bool :=
  scalar fun
    | .bool b => .ok b
    | token => .error (.kind token.found "a boolean")

def string : Schema String :=
  scalar fun
    | .string s => .ok s
    | token => .error (.kind token.found "a string")

def any : Schema Json where
  ofJson v := .ok v
  ofText := Json.readValue

def list (item : Schema α) : Schema (List α) where
  ofJson
    | .array items => items.mapM item.ofJson
    | v => .error (.kind v.found "a sequence")
  ofText s :=
    match Json.readToken s with
    | .error fault => .error fault
    | .ok (.openArray, s) => Json.readItems item.ofText (s.length + 1) true [] s
    | .ok (token, _) => .error (.mismatch (.kind token.found "a sequence"))

def option (schema : Schema α) : Schema (Option α) where
  ofJson
    | .null => .ok none
    | v => (schema.ofJson v).map some
  ofText s :=
    match Json.skipSpace s with
    | 0x6E :: rest => (Json.readWord [0x75, 0x6C, 0x6C] rest).map (none, ·)
    | s => (schema.ofText s).map fun (a, rest) => (some a, rest)

def members : Schema (Members Json) where
  ofJson
    | .object members => .ok members
    | v => .error (.kind v.found "a map")
  ofText s :=
    match Json.readValue s with
    | .error fault => .error fault
    | .ok (.object members, s) => .ok (members, s)
    | .ok (v, _) => .error (.mismatch (.kind v.found "a map"))

/-- The data that a whole text writes, read directly. -/
def parse (schema : Schema α) (s : Bytes) : Except Fault α :=
  Json.readAll schema.ofText s

/-- The data that a whole text writes, read by way of a JSON value. -/
def parseValue (schema : Schema α) (s : Bytes) : Except Fault α :=
  match Json.parse s with
  | .error fault => .error fault
  | .ok v =>
    match schema.ofJson v with
    | .error m => .error (.mismatch m)
    | .ok a => .ok a

end Schema

end AccelControl
