import AccelControl.ParamMap
import AccelControl.Schema.Enumeration
import AccelControl.Schema.Record

/-! The parameters of dumping the statistics of the accelerator module. -/

set_option autoImplicit false

namespace AccelControl

inductive StatsLevel where
  /-- Totals over all devices and channels. -/
  | total
  /-- Each channel by itself, broken down by device. -/
  | channel
  /-- Each device by itself, over all channels. -/
  | device
  deriving DecidableEq, Repr

namespace StatsLevel

def name : StatsLevel → String
  | .total => "total"
  | .channel => "channel"
  | .device => "device"

def label : StatsLevel → String
  | .total => "Total"
  | .channel => "Channel"
  | .device => "Device"

def all : List StatsLevel := [.total, .channel, .device]

def ofName? (name : String) : Option StatsLevel :=
  all.find? (fun level => level.name == name)

@[simp] theorem ofName?_name (level : StatsLevel) : ofName? level.name = some level := by
  cases level <;> rfl

def schema : Schema StatsLevel := .enumeration (all.map fun level => (level.name, level))

end StatsLevel

structure StatsParams where
  level : Option StatsLevel
  deriving DecidableEq, Repr

namespace StatsParams

/-- The parameters of the request: the name of the level, if one is given. -/
def build (p : StatsParams) : ParamMap :=
  match p.level with
  | none => .empty
  | some level => ParamMap.empty.insert "level" (.string level.name) trivial

/-- The parameters with a member for each, those not given being null. -/
def toJson (p : StatsParams) : Json :=
  .object [("level", .ofOption (fun level => .string level.name) p.level)]

def record : Record StatsParams where
  name := "DumpStatsParams"
  fields := [.of "level" (.option StatsLevel.schema) fun level _ => ⟨level⟩]
  initial := ⟨none⟩
  strict := true

def schema : Schema StatsParams := record.schema

end StatsParams

end AccelControl
