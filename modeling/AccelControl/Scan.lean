import AccelControl.Deprecation
import AccelControl.Schema.Record

/-! The parameters of scanning for devices of the accelerator module.

Every parameter is optional. One that is not given is left out of the request, so that the target
keeps its own default; one that is given is sent, whatever its value.
-/

set_option autoImplicit false

namespace AccelControl

structure ScanParams where
  /-- Size of a queue pair. -/
  qpSize : Option UInt32
  /-- Size of a completion queue. -/
  cqSize : Option UInt32
  /-- Size of the request pool of a device. -/
  numRequests : Option UInt32
  /-- Data blocks in one cryptographic operation; zero means no limit. -/
  cryptoSplitBlocks : Option UInt32
  /-- The only devices to use. They are sent in one text with commas between them, so a name with
  a comma arrives as several names. -/
  allowedDevs : Option (List String)
  /-- A deprecated name of `enableDriver`. -/
  merge : Option Bool
  qpPerDomain : Option Bool
  enableDriver : Option Bool
  enableModule : Option Bool
  disableSignature : Option Bool
  disableCrypto : Option Bool
  deriving DecidableEq, Repr

namespace ScanParams

def empty : ScanParams where
  qpSize := none
  cqSize := none
  numRequests := none
  cryptoSplitBlocks := none
  allowedDevs := none
  merge := none
  qpPerDomain := none
  enableDriver := none
  enableModule := none
  disableSignature := none
  disableCrypto := none

inductive Setting where
  | qpSize (n : UInt32)
  | cqSize (n : UInt32)
  | numRequests (n : UInt32)
  | cryptoSplitBlocks (n : UInt32)
  | allowedDevs (names : List String)
  | merge (b : Bool)
  | qpPerDomain (b : Bool)
  | enableDriver (b : Bool)
  | enableModule (b : Bool)
  | disableSignature (b : Bool)
  | disableCrypto (b : Bool)
  deriving DecidableEq, Repr

def set (p : ScanParams) : Setting → ScanParams
  | .qpSize n => { p with qpSize := some n }
  | .cqSize n => { p with cqSize := some n }
  | .numRequests n => { p with numRequests := some n }
  | .cryptoSplitBlocks n => { p with cryptoSplitBlocks := some n }
  | .allowedDevs names => { p with allowedDevs := some names }
  | .merge b => { p with merge := some b }
  | .qpPerDomain b => { p with qpPerDomain := some b }
  | .enableDriver b => { p with enableDriver := some b }
  | .enableModule b => { p with enableModule := some b }
  | .disableSignature b => { p with disableSignature := some b }
  | .disableCrypto b => { p with disableCrypto := some b }

def setAll (p : ScanParams) (settings : List Setting) : ScanParams :=
  settings.foldl set p

def sizeJson (n : UInt32) : Json := .ofUInt64 n.toUInt64

def joined (names : List String) : String := String.intercalate "," names

def add {α : Type} (params : ParamMap) (name : String) (value : Option α) (toJson : α → Json)
    (canonical : ∀ a, (toJson a).Canonical) : ParamMap :=
  match value with
  | none => params
  | some a => params.insert name (toJson a) (canonical a)

def addSize (params : ParamMap) (name : String) (value : Option UInt32) : ParamMap :=
  add params name value sizeJson fun _ => trivial

def addFlag (params : ParamMap) (name : String) (value : Option Bool) : ParamMap :=
  add params name value .bool fun _ => trivial

/-- The parameters of the request. The deprecated `merge` is sent under its canonical name, with a
notice, unless `enableDriver` is given too. -/
def build (p : ScanParams) : BuiltParams where
  params :=
    let params := ParamMap.empty
    let params := addSize params "qp_size" p.qpSize
    let params := addSize params "cq_size" p.cqSize
    let params := addSize params "num_requests" p.numRequests
    let params := addSize params "crypto_split_blocks" p.cryptoSplitBlocks
    let params := add params "allowed_devs" (p.allowedDevs.map joined) .string fun _ => trivial
    let params := addFlag params DeprecatedParam.merge.canonical p.merge
    let params := addFlag params "qp_per_domain" p.qpPerDomain
    let params := addFlag params "enable_driver" p.enableDriver
    let params := addFlag params "enable_module" p.enableModule
    let params := addFlag params "disable_signature" p.disableSignature
    addFlag params "disable_crypto" p.disableCrypto
  notices := if p.merge.isSome then [⟨.merge, true⟩] else []

def namesJson (names : List String) : Json := .array (names.map .string)

/-- The parameters as JSON members in their declared order, those not given being null. -/
def entries (p : ScanParams) : List (String × Json) := [
  ("qp_size", .ofOption sizeJson p.qpSize),
  ("cq_size", .ofOption sizeJson p.cqSize),
  ("num_requests", .ofOption sizeJson p.numRequests),
  ("crypto_split_blocks", .ofOption sizeJson p.cryptoSplitBlocks),
  ("allowed_devs", .ofOption namesJson p.allowedDevs),
  ("merge", .ofOption .bool p.merge),
  ("qp_per_domain", .ofOption .bool p.qpPerDomain),
  ("enable_driver", .ofOption .bool p.enableDriver),
  ("enable_module", .ofOption .bool p.enableModule),
  ("disable_signature", .ofOption .bool p.disableSignature),
  ("disable_crypto", .ofOption .bool p.disableCrypto)]

def toJson (p : ScanParams) : Json := .object (Members.ofEntries p.entries)

/-- The parameters as a record: every field may be null or missing, and no other name is known. -/
def record : Record ScanParams where
  name := "ScanAccelModuleParams"
  fields := [
    .of "qp_size" (.option .word32) fun value p => { p with qpSize := value },
    .of "cq_size" (.option .word32) fun value p => { p with cqSize := value },
    .of "num_requests" (.option .word32) fun value p => { p with numRequests := value },
    .of "crypto_split_blocks" (.option .word32) fun value p =>
      { p with cryptoSplitBlocks := value },
    .of "allowed_devs" (.option (.list .string)) fun value p => { p with allowedDevs := value },
    .of "merge" (.option .bool) fun value p => { p with merge := value },
    .of "qp_per_domain" (.option .bool) fun value p => { p with qpPerDomain := value },
    .of "enable_driver" (.option .bool) fun value p => { p with enableDriver := value },
    .of "enable_module" (.option .bool) fun value p => { p with enableModule := value },
    .of "disable_signature" (.option .bool) fun value p => { p with disableSignature := value },
    .of "disable_crypto" (.option .bool) fun value p => { p with disableCrypto := value }]
  initial := empty
  strict := true

def schema : Schema ScanParams := record.schema

end ScanParams

end AccelControl
