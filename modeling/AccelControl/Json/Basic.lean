import AccelControl.Decimal.Binary64
import AccelControl.Json.Members

/-! JSON values.

Numbers are either integers of 64 bits, with or without a sign, or binary floating-point numbers;
the two kinds stay apart, so that `1` and `1.0` are different values.
-/

set_option autoImplicit false

namespace AccelControl

namespace Json

/-- An integer from the least one with a sign in 64 bits to the greatest one without. -/
structure Integer where
  value : Int
  lower : -0x8000000000000000 ≤ value
  upper : value < 0x10000000000000000
  deriving DecidableEq, Repr

inductive Number where
  | integer (i : Integer)
  | float (x : Binary64)
  deriving DecidableEq, Repr

namespace Integer

def ofNat? (n : Nat) : Option Integer :=
  if h : n < 0x10000000000000000 then some ⟨n, by omega, by omega⟩ else none

def ofNegative? (n : Nat) : Option Integer :=
  if h : n ≤ 0x8000000000000000 then some ⟨-n, by omega, by omega⟩ else none

def ofUInt64 (n : UInt64) : Integer :=
  ⟨n.toNat, by omega, by have := n.toNat_lt; omega⟩

end Integer

end Json

/-- A JSON value. The members of an object are a map; see `Json.Canonical`. -/
inductive Json where
  | null
  | bool (b : Bool)
  | number (n : Json.Number)
  | string (s : String)
  | array (items : List Json)
  | object (members : List (String × Json))
  deriving Repr

namespace Json

mutual

/-- Every object inside has its members in ascending order. All values that are read or built
here are canonical, and two canonical values are equal exactly if they denote the same. -/
def Canonical : Json → Prop
  | .null | .bool _ | .number _ | .string _ => True
  | .array items => CanonicalItems items
  | .object members => Members.Ascending members ∧ CanonicalMembers members

def CanonicalItems : List Json → Prop
  | [] => True
  | item :: rest => Canonical item ∧ CanonicalItems rest

def CanonicalMembers : List (String × Json) → Prop
  | [] => True
  | (_, value) :: rest => Canonical value ∧ CanonicalMembers rest

end

def ofUInt64 (n : UInt64) : Json := .number (.integer (.ofUInt64 n))

def ofOption {α : Type} (toJson : α → Json) : Option α → Json
  | none => .null
  | some a => toJson a

/-- The natural number below `2 ^ 64` that a value is, if it is one. -/
def nat? : Json → Option Nat
  | .number (.integer i) => if 0 ≤ i.value then some i.value.toNat else none
  | _ => none

def isNull : Json → Bool
  | .null => true
  | _ => false

end Json

end AccelControl
