import AccelControl.Rehearsal.Target
import AccelControl.Rpc.Caller
import AccelControl.Rpc.Connect

/-! Sessions of a client with a scripted target. -/

set_option autoImplicit false

namespace AccelControl.Rehearsal

structure Stage where
  client : Client
  target : Target
  /-- The request that reached the target in the last call, if one did. -/
  received : Option String

/-- How a call goes, given the target. When nothing more happens by itself, a call that is to be
cancelled is; any other ends at its deadline, and one with no time at all ends before it reads. -/
def Stage.call (cancel : Bool) (method : String) (params : ParamMap) (stage : Stage) :
    Answer Stage Outcome :=
  let timeless := stage.client.timeout.isZero
  let (opening, target) : Opening × Target :=
    if stage.client.stale then
      match stage.target.accept with
      | .ok target => (.opened, target)
      | .error error => (.failed error, stage.target)
    else (.opened, stage.target)
  let link := target.link
  let coming := link.arrivals
  let episode : Episode := {
    opening
    sending := if link.closed then .failed 0 .brokenPipe else .complete
    arrivals := if timeless then [] else coming
    interruption := if cancel ∧ ¬timeless then .cancelled else .deadline }
  let report := stage.client.call method params episode
  let stage : Stage :=
    if report.written.isEmpty then { client := report.client, target, received := none }
    else
      let unread := if timeless then coming else report.unread
      { client := report.client
        target := { target with link := link.settled unread }
        received := some report.request.text }
  ⟨report.outcome, report.logs, stage⟩

def caller (cancel : Bool) : Caller Stage Outcome := ⟨Stage.call cancel⟩

structure Step where
  cancel : Bool
  step : Except Json.Fault Caller.Step

inductive StepResult where
  | called (outcome : Outcome)
  | unread (fault : Json.Fault)

structure StepReport where
  result : StepResult
  /-- The request that reached the target, if one did. -/
  received : Option String
  /-- How many connections the target has accepted by now. -/
  accepted : Nat
  logs : List LogEvent

def Stage.perform (stage : Stage) (step : Step) : StepReport × Stage :=
  match step.step with
  | .error fault => (⟨.unread fault, none, stage.target.accepted, []⟩, stage)
  | .ok ask =>
    let answer := (caller step.cancel).step stage ask
    let stage := answer.state
    (⟨.called answer.result, stage.received, stage.target.accepted, answer.logs⟩, stage)

def Stage.performAll : Stage → List Step → List StepReport
  | _, [] => []
  | stage, step :: steps =>
    let (report, stage) := stage.perform step
    report :: performAll stage steps

def session (config : ClientConfig) (script : Script) (steps : List Step) :
    ConnectReport × List StepReport :=
  let target := Target.start config script
  let connected := Client.connect config (target.attempt script.appearAfter)
  match connected.result, target.accept with
  | .ok client, .ok target => (connected, Stage.performAll ⟨client, target, none⟩ steps)
  | _, _ => (connected, [])

end AccelControl.Rehearsal
