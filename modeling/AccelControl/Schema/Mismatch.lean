import AccelControl.Text.Decimal
import AccelControl.Text.Quoted

/-! Why well-formed data does not have the expected shape. -/

set_option autoImplicit false

namespace AccelControl

inductive Found where
  | null
  | bool (b : Bool)
  | integer (i : Int)
  /-- A floating-point number, in the notation of the format it was read from. -/
  | float (text : String)
  | string (s : String)
  | sequence
  | map
  deriving DecidableEq, Repr

inductive Mismatch where
  /-- Another kind of value was expected. -/
  | kind (found : Found) (expected : String)
  /-- The kind is right, but the value is not. -/
  | value (found : Found) (expected : String)
  | length (found : Nat) (expected : String)
  | unknownField (name : String) (known : List String)
  | unknownVariant (name : String) (known : List String)
  | missingField (name : String)
  | duplicateField (name : String)
  deriving DecidableEq, Repr

def Found.describe : Found → String
  | .null => "null"
  | .bool b => "boolean `" ++ (if b then "true" else "false") ++ "`"
  | .integer i => "integer `" ++ String.ofList (Text.signedDecimal i) ++ "`"
  | .float text => "floating point `" ++ text ++ "`"
  | .string s => "string " ++ Text.quoted s
  | .sequence => "sequence"
  | .map => "map"

namespace Mismatch

def ticked (name : String) : String := "`" ++ name ++ "`"

def alternatives : List String → String
  | [] => "there are none"
  | [only] => "expected " ++ ticked only
  | [first, second] => "expected " ++ ticked first ++ " or " ++ ticked second
  | names => "expected one of " ++ String.intercalate ", " (names.map ticked)

def message : Mismatch → String
  | .kind found expected => "invalid type: " ++ found.describe ++ ", expected " ++ expected
  | .value found expected => "invalid value: " ++ found.describe ++ ", expected " ++ expected
  | .length found expected =>
    "invalid length " ++ String.ofList (Text.decimal found) ++ ", expected " ++ expected
  | .unknownField name known => "unknown field " ++ ticked name ++ ", " ++ alternatives known
  | .unknownVariant name known => "unknown variant " ++ ticked name ++ ", " ++ alternatives known
  | .missingField name => "missing field " ++ ticked name
  | .duplicateField name => "duplicate field " ++ ticked name

end Mismatch

end AccelControl
