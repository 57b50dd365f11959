import AccelControl.Rpc.Error
import AccelControl.Schema.Basic

/-! Responses, as read from the JSON values that arrive.

A response is an object, or an array with its fields in order. Members other than the three fields
are passed over. A result that is null differs from one that is missing.
-/

set_option autoImplicit false

namespace AccelControl

structure RemoteError where
  code : Int64
  message : String
  deriving DecidableEq, Repr

structure Response where
  id : Json
  result : Option Json
  error : Option RemoteError

def Schema.orElse {α : Type} (schema : Schema α) (default : α) : Option Json → Except Mismatch α
  | none => .ok default
  | some v => schema.ofJson v

/-- Too many items for a record of so many fields. -/
def atMost {α : Type} (fields : Nat) (items : List Json) (a : α) : Except Mismatch α :=
  if fields < items.length then .error (.length items.length "fewer elements in array") else .ok a

namespace RemoteError

/-- Read an error from a value. The code is required, and the message is empty by default. -/
def ofJson : Json → Except Mismatch RemoteError
  | .object members => do
    let members : Members Json := members
    let code ← (Schema.int64.map some).orElse none (members.get? "code")
    let message ← Schema.string.orElse "" (members.get? "message")
    match code with
    | some code => .ok ⟨code, message⟩
    | none => .error (.missingField "code")
  | .array [] => .error (.length 0 "struct RemoteError with 2 elements")
  | .array (code :: rest) => do
    let code ← Schema.int64.ofJson code
    let message ← Schema.string.orElse "" rest.head?
    atMost 2 (.null :: rest) ⟨code, message⟩
  | v => .error (.kind v.found "struct RemoteError")

end RemoteError

namespace Response

/-- A response from the values of its fields, of which any may be missing. -/
def ofFields (id result error : Option Json) : Except Mismatch Response :=
  let response (error : Option RemoteError) : Response := ⟨id.getD .null, result, error⟩
  match error with
  | none | some .null => .ok (response none)
  | some v => (RemoteError.ofJson v).map fun error => response (some error)

def ofJson : Json → Except Mismatch Response
  | .object members =>
    let members : Members Json := members
    ofFields (members.get? "id") (members.get? "result") (members.get? "error")
  | .array items => (ofFields items[0]? items[1]? items[2]?).bind (atMost 3 items)
  | v => .error (.kind v.found "struct Response")

/-- Whether a response answers the request of an id: it has that id, or it has none and reports an
error, as a target does that could not read the request. -/
def answers (r : Response) (id : UInt64) : Bool :=
  r.id.nat? == some id.toNat || (r.id.isNull && r.error.isSome)

/-- What a response brings that answers the request. An error counts more than a result. -/
def outcome (r : Response) : Except RpcError Json :=
  match r.error with
  | some e => .error (.remote e.code e.message)
  | none =>
    match r.result with
    | some v => .ok v
    | none => .error .missingResult

end Response

end AccelControl
