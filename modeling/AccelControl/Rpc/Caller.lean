import AccelControl.Method
import AccelControl.Rpc.Log
import AccelControl.Scan
import AccelControl.Stats

/-! The procedures of the accelerator module, over anything that can call procedures by name. -/

set_option autoImplicit false

namespace AccelControl

/-- What a call ends in, the reports made meanwhile, and the state after it. -/
structure Answer (σ ρ : Type) where
  result : ρ
  logs : List LogEvent
  state : σ

structure Caller (σ ρ : Type) where
  call : String → ParamMap → σ → Answer σ ρ

inductive Handle where
  /-- The caller itself. -/
  | direct
  /-- By a reference to what another handle holds. -/
  | borrowed (inner : Handle)
  /-- By one of several owners of what another handle holds. -/
  | shared (inner : Handle)
  deriving DecidableEq, Repr

variable {σ ρ : Type}

def Handle.caller : Handle → Caller σ ρ → Caller σ ρ
  | .direct, caller => caller
  | .borrowed inner, caller => ⟨fun method params state =>
      (inner.caller caller).call method params state⟩
  | .shared inner, caller => ⟨fun method params state =>
      (inner.caller caller).call method params state⟩

/-- Every handle gives the caller that it holds. -/
@[simp] theorem Handle.caller_eq (handle : Handle) (caller : Caller σ ρ) :
    handle.caller caller = caller := by
  induction handle with
  | direct => rfl
  | borrowed inner ih => simp only [Handle.caller, ih]
  | shared inner ih => simp only [Handle.caller, ih]

namespace Caller

/-- Enable the module and scan for devices. The notices that the parameters raise are reported
before the call. -/
def scan (caller : Caller σ ρ) (p : ScanParams) (state : σ) : Answer σ ρ :=
  let built := p.build
  let answer := caller.call Method.scan.name built.params state
  { answer with logs := Notice.report Method.scan.name built.notices ++ answer.logs }

def dumpStats (caller : Caller σ ρ) (p : StatsParams) (state : σ) : Answer σ ρ :=
  caller.call Method.dumpStats.name p.build state

inductive Step where
  | scan (p : ScanParams)
  | dumpStats (p : StatsParams)
  | call (method : String) (params : ParamMap)

def step (caller : Caller σ ρ) (state : σ) : Step → Answer σ ρ
  | .scan p => caller.scan p state
  | .dumpStats p => caller.dumpStats p state
  | .call method params => caller.call method params state

def run (caller : Caller σ ρ) : σ → List Step → List (Answer σ ρ)
  | _, [] => []
  | state, step :: steps =>
    let answer := caller.step state step
    answer :: run caller answer.state steps

end Caller

end AccelControl
