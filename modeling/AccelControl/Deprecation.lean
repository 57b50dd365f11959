import AccelControl.ParamMap

/-! Parameters of older protocol revisions.

A deprecated parameter has a canonical one in its place. Where both mean the same the value can be
moved; otherwise it stays where it is, and a notice asks for a decision.
-/

set_option autoImplicit false

namespace AccelControl

inductive Polarity where
  | same
  /-- The old parameter enabled what the new one disables, or nearly so. -/
  | inverted
  /-- Nobody has confirmed that the two mean the same. -/
  | unconfirmed
  deriving DecidableEq, Repr

structure DeprecatedParam where
  deprecated : String
  canonical : String
  polarity : Polarity
  /-- Whether the deprecated name is still a field of `ScanParams`. -/
  acceptedAsInput : Bool
  deriving DecidableEq, Repr

namespace DeprecatedParam

/-- The only deprecated parameter that is still a field of `ScanParams`. -/
def merge : DeprecatedParam := ⟨"merge", "enable_driver", .same, true⟩

def table : List DeprecatedParam := [
  merge,
  ⟨"split_mb_blocks", "crypto_split_blocks", .same, false⟩,
  ⟨"allowed_crypto_devs", "allowed_devs", .same, false⟩,
  ⟨"siglast", "disable_signature", .unconfirmed, false⟩,
  ⟨"enable_crc", "disable_crypto", .inverted, false⟩]

def lookup (name : String) : Option DeprecatedParam :=
  table.find? (fun param => param.deprecated == name)

end DeprecatedParam

structure Notice where
  param : DeprecatedParam
  /-- Whether the value was moved to the canonical name. -/
  renamed : Bool
  deriving DecidableEq, Repr

def Notice.text (notice : Notice) : String :=
  let deprecated := "\"" ++ notice.param.deprecated ++ "\""
  let canonical := "\"" ++ notice.param.canonical ++ "\""
  if notice.renamed then
    deprecated ++ " is deprecated and will be removed in a future release, use " ++ canonical
      ++ " instead"
  else
    match notice.param.polarity with
    | .inverted =>
      deprecated ++ " is deprecated; " ++ canonical
        ++ " has inverted meaning and was not set, review manually"
    | .same | .unconfirmed =>
      deprecated ++ " is deprecated; its equivalence to " ++ canonical
        ++ " is unconfirmed and it was passed through unchanged"

structure BuiltParams where
  params : ParamMap
  notices : List Notice

namespace BuiltParams

/-- Move the value of a deprecated name to its canonical one, unless that has a value of its own,
in which case the deprecated value is dropped. -/
def move (params : ParamMap) (param : DeprecatedParam) : ParamMap :=
  match found : params.get? param.deprecated with
  | none => params
  | some value =>
    let rest := params.erase param.deprecated
    if rest.contains param.canonical then rest
    else rest.insert param.canonical value (ParamMap.canonical_of_get? found)

def upgradeParam (built : BuiltParams) (param : DeprecatedParam) : BuiltParams :=
  if built.params.contains param.deprecated then
    match param.polarity with
    | .same => ⟨move built.params param, built.notices ++ [⟨param, true⟩]⟩
    | .inverted | .unconfirmed => ⟨built.params, built.notices ++ [⟨param, false⟩]⟩
  else built

/-- Bring the parameters of an older protocol revision up to date, in the order of the table. -/
def upgrade (params : ParamMap) : BuiltParams :=
  DeprecatedParam.table.foldl upgradeParam ⟨params, []⟩

end BuiltParams

end AccelControl
