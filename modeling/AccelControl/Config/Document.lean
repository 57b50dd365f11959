import AccelControl.Config.Basic
import AccelControl.Decimal.Layout
import AccelControl.Toml.Document

/-! The configuration of a client in a TOML document. -/

set_option autoImplicit false

namespace AccelControl

namespace Toml

def FloatValue.text : FloatValue → String
  | .finite x => String.ofList (FloatLayout.plain.text x)
  | .infinite false => "inf"
  | .infinite true => "-inf"
  | .nan => "NaN"

/-- What kind of entry was found. A date counts as a map of its parts. -/
def Entry.found : Entry → Found
  | .value (.string s) => .string s
  | .value (.integer i) => .integer i
  | .value (.float x) => .float x.text
  | .value (.bool b) => .bool b
  | .value (.moment _) => .map
  | .value (.array _) => .sequence
  | .value (.table _) => .map
  | .table _ _ => .map
  | .tables _ => .sequence

end Toml

inductive DocumentFault where
  /-- The text is not TOML. -/
  | malformed
  | mismatch (m : Mismatch)
  deriving DecidableEq, Repr

namespace ClientConfig

def textEntry (entry : Toml.Entry) (expected : String) : Except Mismatch String :=
  match entry with
  | .value (.string s) => .ok s
  | entry => .error (.kind entry.found expected)

def naturalEntry (highest : Nat) (entry : Toml.Entry) (expected : String) : Except Mismatch Nat :=
  match entry with
  | .value (.integer i) =>
    if 0 ≤ i ∧ i ≤ highest then .ok i.toNat else .error (.value (.integer i) expected)
  | entry => .error (.kind entry.found expected)

/-- Take an entry of a document into a configuration. Names that are no field's are passed over. -/
def takeEntry (c : ClientConfig) (name : String) (entry : Toml.Entry) :
    Except Mismatch ClientConfig :=
  if name = "server_addr" then
    (textEntry entry "a string").map fun serverAddr => { c with serverAddr }
  else if name = "port" then
    (naturalEntry 0xFFFF entry "u16").map fun port => { c with port := UInt16.ofNat port }
  else if name = "timeout" then
    ((textEntry entry "a duration").bind Duration.ofField).map fun timeout => { c with timeout }
  else if name = "conn_retries" then
    (naturalEntry 0xFFFFFFFFFFFFFFFF entry "usize").map fun n => { c with connRetries := UInt64.ofNat n }
  else .ok c

/-- The configuration that a document writes. Its entries are taken in their order; what is missing
stays unwritten. -/
def ofToml (text : String) : Except DocumentFault ClientConfig :=
  match Toml.parse text with
  | none => .error .malformed
  | some entries =>
    match entries.foldlM (fun c entry => c.takeEntry entry.1 entry.2) unwritten with
    | .ok c => .ok c
    | .error m => .error (.mismatch m)

end ClientConfig

end AccelControl
