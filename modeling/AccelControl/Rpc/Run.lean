import AccelControl.Rpc.Client

/-! Runs of a client: one call after another.

What a client meets is given call by call, or by a `Peer` that keeps a state for the place where the
client connects and one for the connection in use.
-/

set_option autoImplicit false

namespace AccelControl

structure Ask where
  method : String
  params : ParamMap

/-- A call, and what happens around the client meanwhile. -/
structure Turn extends Ask where
  episode : Episode

namespace Client

def run : Client → List Turn → List CallReport
  | _, [] => []
  | c, turn :: turns =>
    let report := c.call turn.method turn.params turn.episode
    report :: report.client.run turns

def after : Client → List Turn → Client
  | c, [] => c
  | c, turn :: turns => (c.call turn.method turn.params turn.episode).client.after turns

end Client

inductive Attempt (κ : Type) where
  | opened (line : κ)
  | failed (error : IoError)
  | cancelled
  deriving DecidableEq, Repr

namespace Attempt

variable {κ : Type}

def opening : Attempt κ → Opening
  | .opened _ => .opened
  | .failed error => .failed error
  | .cancelled => .cancelled

def line (old : κ) : Attempt κ → κ
  | .opened line => line
  | .failed _ | .cancelled => old

end Attempt

structure Peer (σ κ : Type) where
  /-- How an attempt to connect goes. -/
  accept : σ → Attempt κ × σ
  /-- What happens on a connection to which these bytes are written. -/
  exchange : κ → Bytes → Exchange
  /-- The connection after a call. -/
  settle : κ → CallReport → κ

structure Meeting (σ κ : Type) where
  client : Client
  listener : σ
  line : κ

namespace Peer

variable {σ κ : Type}

def call (peer : Peer σ κ) (m : Meeting σ κ) (ask : Ask) : CallReport × Meeting σ κ :=
  let request : Request := ⟨ask.method, m.client.nextId, ask.params⟩
  let (attempt, listener) :=
    if m.client.stale then peer.accept m.listener else (.opened m.line, m.listener)
  let line := attempt.line m.line
  let report := m.client.call ask.method ask.params
    ⟨peer.exchange line request.bytes, attempt.opening⟩
  (report, ⟨report.client, listener, peer.settle line report⟩)

def run (peer : Peer σ κ) : Meeting σ κ → List Ask → List CallReport × Meeting σ κ
  | m, [] => ([], m)
  | m, ask :: asks =>
    let (report, m) := peer.call m ask
    let (reports, m) := peer.run m asks
    (report :: reports, m)

end Peer

end AccelControl
