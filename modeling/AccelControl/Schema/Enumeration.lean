import AccelControl.Schema.Basic

/-! Enumerations in JSON data: the name of a variant as a string, or as the single name of an
object, in which case its value must be null. -/

set_option autoImplicit false

namespace AccelControl.Schema

open Json (Fault)

variable {α : Type}

def variant (variants : List (String × α)) (name : String) : Except Mismatch α :=
  match variants.find? (fun entry => entry.1 == name) with
  | some entry => .ok entry.2
  | none => .error (.unknownVariant name (variants.map (·.1)))

def lifted : Except Mismatch α → Except Fault α
  | .ok a => .ok a
  | .error m => .error (.mismatch m)

def readUnit (s : Bytes) : Except Fault Bytes :=
  match Json.readToken s with
  | .error fault => .error fault
  | .ok (.null, s) =>
    match Json.skipSpace s with
    | [] => .error .unfinished
    | b :: s => if b = 0x7D then .ok s else .error .malformed
  | .ok (token, _) => .error (.mismatch (.kind token.found "unit"))

def enumeration (variants : List (String × α)) : Schema α where
  ofJson
    | .string name => variant variants name
    | .object [(name, value)] =>
      match variant variants name with
      | .error m => .error m
      | .ok a => if value.isNull then .ok a else .error (.kind value.found "unit")
    | .object _ => .error (.value .map "map with a single key")
    | v => .error (.kind v.found "string or map")
  ofText s :=
    match Json.skipSpace s with
    | [] => .error .unfinished
    | b :: s =>
      if b = 0x22 then
        match Json.readString s with
        | .error fault => .error fault
        | .ok (name, s) => (lifted (variant variants name)).map (·, s)
      else if b = 0x7B then
        match (Json.readQuote (Json.skipSpace s)).bind Json.readString with
        | .error fault => .error fault
        | .ok (name, s) =>
          match lifted (variant variants name) with
          | .error fault => .error fault
          | .ok a => ((Json.readColon s).bind readUnit).map (a, ·)
      else .error .malformed

end AccelControl.Schema
