/-! The remote procedures of the accelerator module. -/

set_option autoImplicit false

namespace AccelControl

inductive Method where
  /-- Enable the module and scan for the devices it can use. -/
  | scan
  | dumpStats
  deriving DecidableEq, Repr

namespace Method

def name : Method → String
  | .scan => "mlx5_scan_accel_module"
  | .dumpStats => "accel_mlx5_dump_stats"

def label : Method → String
  | .scan => "ScanAccelModule"
  | .dumpStats => "DumpStats"

def all : List Method := [.scan, .dumpStats]

def ofName? (name : String) : Option Method :=
  all.find? (fun method => method.name == name)

@[simp] theorem ofName?_name (method : Method) : ofName? method.name = some method := by
  cases method <;> rfl

end Method

end AccelControl
