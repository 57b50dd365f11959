import AccelControl.Decimal.Layout
import AccelControl.Json.Basic
import AccelControl.Text.Utf8

/-! The compact text of a JSON value: no blanks, the members of an object in ascending order, and
only those characters escaped that JSON does not allow in a string. -/

set_option autoImplicit false

namespace AccelControl.Json

/-- Floating-point numbers are written positionally if their leading digit stands from five places
behind the point to fifteen places before the last one in front of it. Ties go to an even digit. -/
def floatLayout : FloatLayout := ⟨fun leading => -5 ≤ leading && leading ≤ 15, .toEven⟩

def Number.text : Number → List Char
  | .integer i => Text.signedDecimal i.value
  | .float x => floatLayout.text x

def escapedChar (c : Char) : List Char :=
  if c = '"' then ['\\', '"']
  else if c = '\\' then ['\\', '\\']
  else if c = '\x08' then ['\\', 'b']
  else if c = '\x0c' then ['\\', 'f']
  else if c = '\n' then ['\\', 'n']
  else if c = '\r' then ['\\', 'r']
  else if c = '\t' then ['\\', 't']
  else if c.toNat < 0x20 then
    ['\\', 'u', '0', '0', Nat.digitChar (c.toNat / 16), Nat.digitChar (c.toNat % 16)]
  else [c]

def stringText (s : String) : List Char :=
  '"' :: s.toList.flatMap escapedChar ++ ['"']

mutual

def text : Json → List Char
  | .null => ['n', 'u', 'l', 'l']
  | .bool true => ['t', 'r', 'u', 'e']
  | .bool false => ['f', 'a', 'l', 's', 'e']
  | .number n => n.text
  | .string s => stringText s
  | .array items => '[' :: itemsText items ++ [']']
  | .object members => '\x7b' :: membersText members ++ ['\x7d']

def itemsText : List Json → List Char
  | [] => []
  | [item] => text item
  | item :: rest => text item ++ ',' :: itemsText rest

def membersText : List (String × Json) → List Char
  | [] => []
  | [(name, value)] => stringText name ++ ':' :: text value
  | (name, value) :: rest => stringText name ++ ':' :: text value ++ ',' :: membersText rest

end

def render (v : Json) : String := String.ofList v.text

def bytes (v : Json) : Bytes := Utf8.encode v.text

end AccelControl.Json
