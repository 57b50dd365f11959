import AccelControl.Json.Skipper
import AccelControl.Schema.Basic

/-! Records in JSON data: an object with a member for each field, or an array with the fields in
their declared order. Fields that are missing keep the value they have in the initial record. -/

set_option autoImplicit false

namespace AccelControl

open Json (Fault Reader)

variable {σ : Type}

structure Field (σ : Type) where
  name : String
  schema : Schema (σ → σ)

def Field.of {α : Type} (name : String) (schema : Schema α) (set : α → σ → σ) : Field σ :=
  ⟨name, schema.map set⟩

structure Record (σ : Type) where
  name : String
  fields : List (Field σ)
  initial : σ
  /-- Whether a name that is no field's is refused. -/
  strict : Bool

namespace Record

def expected (record : Record σ) : String := "struct " ++ record.name

def fieldNames (record : Record σ) : List String := record.fields.map (·.name)

def field? (record : Record σ) (name : String) : Option (Field σ) :=
  record.fields.find? (fun field => field.name == name)

def takeMember (record : Record σ) (state : σ) (name : String) (value : Json) :
    Except Mismatch σ :=
  match record.field? name with
  | some field => (field.schema.ofJson value).map (· state)
  | none =>
    if record.strict then .error (.unknownField name record.fieldNames) else .ok state

/-- Take the items of an array into a record, field by field. The first argument is the number of
items, for the message when there are too many. -/
def takeItems (total : Nat) : List (Field σ) → List Json → σ → Except Mismatch σ
  | _, [], state => .ok state
  | [], _ :: _, _ => .error (.length total "fewer elements in array")
  | field :: fields, item :: items, state =>
    match field.schema.ofJson item with
    | .error m => .error m
    | .ok set => takeItems total fields items (set state)

/-- Read a record from a value. The members of an object are taken in ascending order. -/
def ofJson (record : Record σ) : Json → Except Mismatch σ
  | .object members =>
    members.foldlM (fun state member => record.takeMember state member.1 member.2) record.initial
  | .array items => takeItems items.length record.fields items record.initial
  | v => .error (.kind v.found record.expected)

/-- Read the text of a member behind its name. The state holds the names of the fields read. -/
def readMember (record : Record σ) (state : List String × σ) (name : String) :
    Reader (List String × σ) := fun s =>
  match record.field? name with
  | some field =>
    if state.1.contains name then .error (.mismatch (.duplicateField name))
    else
      match Json.readColon s with
      | .error fault => .error fault
      | .ok s =>
        (field.schema.ofText s).map fun (set, s) => ((name :: state.1, set state.2), s)
  | none =>
    if record.strict then .error (.mismatch (.unknownField name record.fieldNames))
    else ((Json.readColon s).bind Json.skipValue).map (state, ·)

def readEnd (s : Bytes) : Except Fault Bytes :=
  match Json.skipSpace s with
  | [] => .error .unfinished
  | b :: s => if b = 0x5D then .ok s else .error .malformed

def readFields : List (Field σ) → Bool → σ → Reader σ
  | [], _, state, s => (readEnd s).map (state, ·)
  | field :: fields, first, state, s =>
    match Json.next 0x5D first s with
    | .error fault => .error fault
    | .ok (.closed s) => .ok (state, s)
    | .ok (.item s) =>
      match field.schema.ofText s with
      | .error fault => .error fault
      | .ok (set, s) => readFields fields false (set state) s

/-- Read a record directly from text. A field that occurs twice is refused. -/
def ofText (record : Record σ) : Reader σ := fun s =>
  match Json.readToken s with
  | .error fault => .error fault
  | .ok (.openObject, s) =>
    let start : List String × σ := ([], record.initial)
    (Json.readMembers Json.readString record.readMember (s.length + 1) true start s).map
      fun (state, s) => (state.2, s)
  | .ok (.openArray, s) => readFields record.fields true record.initial s
  | .ok (token, _) => .error (.mismatch (.kind token.found record.expected))

def schema (record : Record σ) : Schema σ := ⟨record.ofJson, record.ofText⟩

end Record

end AccelControl
