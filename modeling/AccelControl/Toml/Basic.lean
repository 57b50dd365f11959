import AccelControl.Decimal.Binary64

/-! TOML documents. -/

set_option autoImplicit false

namespace AccelControl.Toml

/-- A floating-point number; unlike JSON, TOML can write infinities and NaN. -/
inductive FloatValue where
  | finite (x : Binary64)
  | infinite (negative : Bool)
  | nan
  deriving DecidableEq, Repr

inductive Value where
  | string (s : String)
  | integer (i : Int)
  | float (x : FloatValue)
  | bool (b : Bool)
  /-- A date, a time or both, as written. -/
  | moment (text : String)
  | array (items : List Value)
  | table (entries : List (String × Value))
  deriving Repr

inductive Origin where
  /-- By a header of its own, or as the document. -/
  | header
  /-- By a header of a table inside it. -/
  | implied
  /-- By dots in the name of an entry. -/
  | dotted
  deriving DecidableEq, Repr

inductive Entry where
  | value (v : Value)
  | table (origin : Origin) (entries : List (String × Entry))
  /-- Tables under headers in double brackets, in the order of the headers. -/
  | tables (items : List (List (String × Entry)))
  deriving Repr

abbrev Entries := List (String × Entry)

end AccelControl.Toml
