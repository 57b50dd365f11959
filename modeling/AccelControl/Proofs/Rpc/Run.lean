import AccelControl.Proofs.Rpc.Call
import AccelControl.Rpc.Run

/-! Runs and what calls leave of a client. -/

set_option autoImplicit false

namespace AccelControl

namespace Client

/-- The last call of a run leaves the client that the run leaves. -/
theorem client_of_getLast? {c : Client} {turns : List Turn} {r : CallReport}
    (last : (c.run turns).getLast? = some r) : r.client = c.after turns := by
  induction turns generalizing c with
  | nil => exact nomatch last
  | cons turn turns ih =>
    cases turns with
    | nil => cases last; rfl
    | cons next turns =>
      rw [run, run, List.getLast?_cons_cons] at last
      exact ih last

@[simp] theorem after_addr (c : Client) (turns : List Turn) : (c.after turns).addr = c.addr := by
  induction turns generalizing c with
  | nil => rfl
  | cons turn turns ih => rw [after, ih, call_addr]

@[simp] theorem after_timeout (c : Client) (turns : List Turn) :
    (c.after turns).timeout = c.timeout := by
  induction turns generalizing c with
  | nil => rfl
  | cons turn turns ih => rw [after, ih, call_timeout]

def requestsFrom (id : UInt64) : List Ask → List Request
  | [] => []
  | ask :: asks => ⟨ask.method, id, ask.params⟩ :: requestsFrom (id + 1) asks

theorem run_requests (c : Client) (turns : List Turn) :
    (c.run turns).map (·.request) = requestsFrom c.nextId (turns.map (·.toAsk)) := by
  induction turns generalizing c with
  | nil => rfl
  | cons turn turns ih =>
    rw [run, List.map_cons, ih, call_nextId, call_request]
    rfl

theorem requestsFrom_ids (asks : List Ask) (used : Nat) (few : used + asks.length < UInt64.size) :
    (requestsFrom (.ofNat (used + 1)) asks).map (fun r => (r.method, r.id.toNat, r.params))
      = asks.mapIdx fun i ask => (ask.method, used + i + 1, ask.params) := by
  induction asks generalizing used with
  | nil => rfl
  | cons ask asks ih =>
    rw [List.length_cons] at few
    have next : UInt64.ofNat (used + 1) + 1 = .ofNat (used + 1 + 1) := (UInt64.ofNat_add _ _).symm
    have fits : (UInt64.ofNat (used + 1)).toNat = used + 1 :=
      UInt64.toNat_ofNat_of_lt' (by omega)
    rw [requestsFrom, List.map_cons, next, ih (used + 1) (by omega), List.mapIdx_cons, fits]
    simp only [Nat.add_zero, Nat.add_assoc, Nat.add_comm 1]

end Client

namespace Peer

variable {σ κ : Type} {peer : Peer σ κ} {m : Meeting σ κ}

theorem call_of_sync (ask : Ask) (sync : m.client.stale = false) : peer.call m ask =
    let report := m.client.call ask.method ask.params
      ⟨peer.exchange m.line (m.client.asking ask.method ask.params).bytes, .opened⟩
    (report, ⟨report.client, m.listener, peer.settle m.line report⟩) := by
  simp only [call, sync]
  rfl

theorem call_of_stale (ask : Ask) (stale : m.client.stale = true) : peer.call m ask =
    let line := (peer.accept m.listener).1.line m.line
    let report := m.client.call ask.method ask.params
      ⟨peer.exchange line (m.client.asking ask.method ask.params).bytes,
        (peer.accept m.listener).1.opening⟩
    (report, ⟨report.client, (peer.accept m.listener).2, peer.settle line report⟩) := by
  simp only [call, stale]
  rfl

theorem run_cons (ask : Ask) (asks : List Ask) : peer.run m (ask :: asks)
    = ((peer.call m ask).1 :: (peer.run (peer.call m ask).2 asks).1,
      (peer.run (peer.call m ask).2 asks).2) := rfl

/-- What a client does with a peer is a run of the client. -/
theorem run_eq (peer : Peer σ κ) (asks : List Ask) (m : Meeting σ κ) : ∃ turns : List Turn,
    turns.map (·.toAsk) = asks ∧ (peer.run m asks).1 = m.client.run turns ∧
      (peer.run m asks).2.client = m.client.after turns := by
  induction asks generalizing m with
  | nil => exact ⟨[], rfl, rfl, rfl⟩
  | cons ask asks ih =>
    obtain ⟨turns, same, reports, last⟩ := ih (peer.call m ask).2
    -- Whatever the peer does, its part in a call is an episode.
    have turn : ∃ e : Episode, peer.call m ask = (m.client.call ask.method ask.params e,
        { (peer.call m ask).2 with client := (m.client.call ask.method ask.params e).client }) :=
      ⟨_, rfl⟩
    obtain ⟨e, called⟩ := turn
    refine ⟨⟨ask, e⟩ :: turns, by rw [List.map_cons, same], ?_, ?_⟩
    · rw [run_cons, Client.run, reports, called]
    · rw [run_cons, Client.after, last, called]

end Peer

end AccelControl
