import AccelControl.Proofs.Rpc.Caller
import AccelControl.Proofs.Rpc.Request
import AccelControl.Proofs.Rpc.Sending
import AccelControl.Proofs.Scan.Request

/-! What is read from the requests that calls have written.

Nothing marks where a request ends but its own last bracket. Even so, requests that are written one
after another are taken off a stream one after another, each as the object of what was asked.
-/

set_option autoImplicit false

namespace AccelControl

theorem StatsParams.flat_build (p : StatsParams) : p.build.Flat := by
  unfold build
  cases p.level with
  | none => exact ParamMap.flat_empty
  | some level =>
    have canonical : (Json.string level.name).Canonical := trivial
    exact ParamMap.flat_empty.insert "level" canonical trivial rfl

namespace Client

structure Dispatch extends Turn where
  client : Client
  opens : client.stale = true → episode.opening = .opened
  complete : episode.sending = .complete

namespace Dispatch

variable (d : Dispatch)

def report : CallReport := d.client.call d.method d.params d.episode

def request : Request := d.client.asking d.method d.params

theorem writings_eq : d.report.writings = [d.request.bytes] := by
  rw [report, call_writings _ _ _ _ d.opens, d.complete]
  rfl

theorem written_eq : d.report.written = d.request.bytes := by
  rw [CallReport.written_eq, writings_eq, List.flatten_singleton]

/-- The request of the call can be read: it has no floating-point number inside and does not nest too
deep, or it is made by one of the procedures. -/
def Readable : Prop :=
  d.params.toJson.FloatFree ∧ d.request.toJson.depth ≤ Json.greatestDepth ∨
    (∃ p, d.toAsk = (Caller.Step.scan p).ask) ∨ ∃ p, d.toAsk = (Caller.Step.dumpStats p).ask

variable {d}

theorem limits_of_flat (flat : d.params.Flat) :
    d.params.toJson.FloatFree ∧ d.request.toJson.depth ≤ Json.greatestDepth := by
  refine ⟨flat.floatFree, ?_⟩
  calc d.request.toJson.depth
      ≤ d.params.toJson.depth + 1 := d.request.depth_toJson_le
    _ ≤ 1 + 1 := Nat.succ_le_succ flat.depth_le
    _ ≤ Json.greatestDepth := by decide

theorem Readable.limits (readable : d.Readable) :
    d.params.toJson.FloatFree ∧ d.request.toJson.depth ≤ Json.greatestDepth := by
  rcases readable with limits | ⟨p, made⟩ | ⟨p, made⟩
  · exact limits
  · have params : d.params = p.build.params := congrArg Ask.params made
    exact limits_of_flat (params ▸ p.flat_build)
  · have params : d.params = p.build := congrArg Ask.params made
    exact limits_of_flat (params ▸ p.flat_build)

theorem Readable.framed (readable : d.Readable) :
    Json.Framed d.report.written (.object d.request.members) := by
  obtain ⟨plain, shallow⟩ := readable.limits
  rw [written_eq, ← Request.normalize_toJson]
  exact Request.framed_bytes plain shallow

end Dispatch

/-- Whatever calls have written one after another is read back as it was asked, in its order and with
nothing left over: for each call an object with the version, the method and the id, and with the
parameters exactly if there are any. -/
theorem dispatched_read_back (calls : List Dispatch) (readable : ∀ d ∈ calls, d.Readable) :
    let sent := calls.map fun d => (d.report.written, Json.object d.request.members)
    Json.takeEach (sent.flatMap (·.1)) (List.replicate (calls.length + 1) []) = Json.takings sent := by
  intro sent
  have framed : ∀ text ∈ sent, Json.Framed text.1 text.2 := by
    intro text mem
    obtain ⟨d, asked, rfl⟩ := List.mem_map.1 mem
    exact (readable d asked).framed
  have taken := Json.takeEach_framed framed
  rwa [List.length_map] at taken

/-- A scan for devices of which one has a name outside ASCII and one has a quote in its name. -/
def namesDispatch : Dispatch where
  toAsk := (Caller.Step.scan { ScanParams.empty with allowedDevs := some ["\u00b5x5", "a\"b"] }).ask
  episode := ⟨⟨.complete, [], .deadline⟩, .opened⟩
  client := fresh "./rpc.sock" .minute
  opens := nofun
  complete := rfl

/-- A call on a new connection, under the last id and with a parameter of several parts. -/
def nestedDispatch : Dispatch where
  method := "tab\t"
  params := .ofMembers [("parts", .array [.number (.integer ⟨-1, by decide, by decide⟩), .array []])]
  episode := ⟨⟨.complete, [], .cancelled⟩, .opened⟩
  client := { fresh "./rpc.sock" .minute with nextId := 0xFFFFFFFFFFFFFFFF, stale := true }
  opens := fun _ => rfl
  complete := rfl

theorem dispatched_read_back_names_nested :
    (∀ d ∈ [namesDispatch, nestedDispatch], d.Readable) ∧
      let sent := [namesDispatch, nestedDispatch].map fun d =>
        (d.report.written, Json.object d.request.members)
      Json.takeEach (sent.flatMap (·.1)) (List.replicate 3 []) = Json.takings sent := by
  have nested : nestedDispatch.Readable :=
    .inl ⟨⟨⟨trivial, trivial, trivial⟩, trivial⟩, Nat.le_of_ble_eq_true rfl⟩
  have readable : ∀ d ∈ [namesDispatch, nestedDispatch], d.Readable :=
    List.forall_mem_cons.2 ⟨.inr (.inl ⟨_, rfl⟩), List.forall_mem_singleton.2 nested⟩
  exact ⟨readable, dispatched_read_back _ readable⟩

end Client

end AccelControl
