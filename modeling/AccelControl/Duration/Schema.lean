import AccelControl.Duration.Units
import AccelControl.Schema.Basic

/-! Spans of time in JSON data. -/

set_option autoImplicit false

namespace AccelControl.Duration

def ofField (s : String) : Except Mismatch Duration :=
  match ofUnits? s with
  | some d => .ok d
  | none => .error (.value (.string s) "a duration")

def schema : Schema Duration :=
  .scalar fun
    | .string s => ofField s
    | token => .error (.kind token.found "a duration")

end AccelControl.Duration
