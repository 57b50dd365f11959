import AccelControl.Rpc.Caller
import AccelControl.Rpc.Run

/-! What the procedures make of a caller.

Each step makes one call, hands on what it brings, and reports nothing by itself but the notices that
its parameters raise. So of a whole run the caller sees the calls asked for, and whoever asks sees what
these calls have brought, however the caller is held.
-/

set_option autoImplicit false

namespace AccelControl.Caller

variable {σ ρ : Type}

def Step.ask : Step → Ask
  | .scan p => ⟨"mlx5_scan_accel_module", p.build.params⟩
  | .dumpStats p => ⟨"accel_mlx5_dump_stats", p.build⟩
  | .call method params => ⟨method, params⟩

/-- What a step reports by itself, before its call. -/
def Step.warnings : Step → List LogEvent
  | .scan p => p.build.notices.map (.deprecated "mlx5_scan_accel_module")
  | .dumpStats _ | .call .. => []

theorem Step.level_of_mem_warnings {step : Step} : ∀ event ∈ step.warnings, event.level = .warn := by
  cases step with
  | scan p =>
    intro event mem
    obtain ⟨notice, -, rfl⟩ := List.mem_map.1 mem
    rfl
  | dumpStats p => exact List.forall_mem_nil _
  | call method params => exact List.forall_mem_nil _

/-- A step is its call, behind its own reports. -/
theorem step_eq (caller : Caller σ ρ) (state : σ) (step : Step) :
    caller.step state step =
      let answer := caller.call step.ask.method step.ask.params state
      { answer with logs := step.warnings ++ answer.logs } := by
  cases step with
  | scan p => rfl
  | dumpStats p => rfl
  | call method params => rfl

def after (caller : Caller σ ρ) : σ → List Step → σ
  | state, [] => state
  | state, step :: steps => caller.after (caller.step state step).state steps

structure Receipt (σ ρ : Type) where
  ask : Ask
  answer : Answer σ ρ

def receipts (caller : Caller σ ρ) : σ → List Ask → List (Receipt σ ρ)
  | _, [] => []
  | state, ask :: asks =>
    let answer := caller.call ask.method ask.params state
    ⟨ask, answer⟩ :: caller.receipts answer.state asks

def recording (caller : Caller σ ρ) : Caller (σ × List (Receipt σ ρ)) ρ where
  call method params state :=
    let answer := caller.call method params state.1
    ⟨answer.result, answer.logs, (answer.state, state.2 ++ [⟨⟨method, params⟩, answer⟩])⟩

variable (caller : Caller σ ρ) (state : σ)

theorem receipts_asks (asks : List Ask) : (caller.receipts state asks).map (·.ask) = asks := by
  induction asks generalizing state with
  | nil => rfl
  | cons ask asks ih => rw [receipts, List.map_cons, ih]

theorem recording_step (record : List (Receipt σ ρ)) (step : Step) :
    caller.recording.step (state, record) step =
      let answer := caller.call step.ask.method step.ask.params state
      ⟨answer.result, step.warnings ++ answer.logs,
        (answer.state, record ++ [⟨step.ask, answer⟩])⟩ :=
  step_eq caller.recording (state, record) step

theorem run_recording (record : List (Receipt σ ρ)) (steps : List Step) :
    let answers := caller.recording.run (state, record) steps
    let receipts := caller.receipts state (steps.map Step.ask)
    (caller.recording.after (state, record) steps).2 = record ++ receipts ∧
      answers.map (·.result) = receipts.map (·.answer.result) ∧
      answers.map (·.logs)
        = List.zipWith (fun step receipt => step.warnings ++ receipt.answer.logs) steps receipts := by
  -- A step adds one receipt, and the next one finds the state that this call has left.
  induction steps generalizing state record with
  | nil => exact ⟨(List.append_nil record).symm, rfl, rfl⟩
  | cons step steps ih =>
    let answer := caller.call step.ask.method step.ask.params state
    obtain ⟨kept, results, logs⟩ := ih answer.state (record ++ [⟨step.ask, answer⟩])
    simp only [run, after, recording_step, List.map_cons, receipts, List.zipWith_cons_cons]
    refine ⟨?_, ?_, ?_⟩
    · rw [kept, List.append_assoc]
      rfl
    · rw [results]
    · rw [logs]

/-- Whatever caller stands behind the procedures, and however it is held, it receives one call for each
step, in their order: that of the procedure, with the parameters built for it, or the one asked for
directly. The step ends in what this call has ended in. It reports the notices of its parameters, as
warnings and in their order, in front of what the call reports, and nothing else. -/
theorem run_transparent {σ ρ : Type} (caller : Caller σ ρ) (state : σ) (steps : List Step)
    (handle : Handle) :
    let held := handle.caller caller.recording
    let answers := held.run (state, []) steps
    let receipts := (held.after (state, []) steps).2
    receipts.map (·.ask) = steps.map Step.ask ∧
      answers.map (·.result) = receipts.map (·.answer.result) ∧
      answers.map (·.logs)
        = List.zipWith (fun step receipt => step.warnings ++ receipt.answer.logs) steps receipts ∧
      (∀ step ∈ steps, ∀ event ∈ step.warnings, event.level = .warn) ∧
      receipts = caller.receipts state (steps.map Step.ask) ∧
      ∀ other : Handle, (other.caller caller.recording).run (state, []) steps = answers ∧
        ((other.caller caller.recording).after (state, []) steps).2 = receipts := by
  intro held answers receipts
  have direct : held = caller.recording := handle.caller_eq caller.recording
  obtain ⟨kept, results, logs⟩ := run_recording caller state [] steps
  have same : receipts = caller.receipts state (steps.map Step.ask) := by
    simp only [receipts, direct, kept, List.nil_append]
  refine ⟨?_, ?_, ?_, fun step _ => step.level_of_mem_warnings, same, fun other => ?_⟩
  · rw [same, receipts_asks]
  · rw [same, ← results, ← direct]
  · rw [same, ← logs, ← direct]
  · rw [other.caller_eq, ← direct]
    exact ⟨rfl, rfl⟩

end AccelControl.Caller
