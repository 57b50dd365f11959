import AccelControl.Proofs.Rpc.Synchronisation

/-! Nothing of an abandoned connection is seen again.

Two clients that are out of step and have the same settings behave alike from then on, whatever is on
their buffers and whatever their connections do. They differ in their buffers until a connection
opens, and in nothing after that.
-/

set_option autoImplicit false

namespace AccelControl

/-- What can be seen of a call: how it ends, and everything that the client does, which includes the
bytes that it writes and what it reports. -/
def CallReport.visible (r : CallReport) : Outcome × List Act := (r.outcome, r.acts)

namespace Peer

variable {σ κ : Type} {peer : Peer σ κ}

/-- Two clients that are out of step, with the same settings and before the same listener. -/
structure Abandoned (m m' : Meeting σ κ) : Prop where
  stale : m.client.stale = true
  stale' : m'.client.stale = true
  addr : m.client.addr = m'.client.addr
  timeout : m.client.timeout = m'.client.timeout
  nextId : m.client.nextId = m'.client.nextId
  listener : m.listener = m'.listener

namespace Abandoned

variable {m m' : Meeting σ κ}

theorem asking (alike : Abandoned m m') (ask : Ask) :
    m.client.asking ask.method ask.params = m'.client.asking ask.method ask.params := by
  simp only [Client.asking, alike.nextId]

theorem reopened (alike : Abandoned m m') :
    m.client.numbered.reopened = m'.client.numbered.reopened := by
  simp only [Client.reopened, Client.numbered, alike.addr, alike.timeout, alike.nextId]

/-- Once a connection opens both clients are in the same state. -/
theorem call_of_opened (alike : Abandoned m m') (ask : Ask) {line : κ}
    (opened : (peer.accept m.listener).1 = .opened line) : peer.call m ask = peer.call m' ask := by
  have opened' : (peer.accept m'.listener).1 = .opened line := by rw [← alike.listener, opened]
  rw [Peer.call_of_stale ask alike.stale, Peer.call_of_stale ask alike.stale']
  simp only [opened, opened', Attempt.line, Attempt.opening]
  rw [Client.call_of_opened _ _ _ alike.stale rfl, Client.call_of_opened _ _ _ alike.stale' rfl,
    alike.asking, alike.reopened, alike.addr, alike.listener]

/-- As long as none opens, both calls are seen to fail alike, and the clients stay as they are. -/
theorem call_of_unopened (alike : Abandoned m m') (ask : Ask)
    (unopened : ∀ line, (peer.accept m.listener).1 ≠ .opened line) :
    (peer.call m ask).1.visible = (peer.call m' ask).1.visible ∧
      Abandoned (peer.call m ask).2 (peer.call m' ask).2 := by
  have missing : (peer.accept m.listener).1.opening ≠ .opened := by
    cases attempt : (peer.accept m.listener).1 with
    | opened line => exact absurd attempt (unopened line)
    | failed error => exact nofun
    | cancelled => exact nofun
  have missing' : (peer.accept m'.listener).1.opening ≠ .opened := by rwa [← alike.listener]
  rw [Peer.call_of_stale ask alike.stale, Peer.call_of_stale ask alike.stale']
  dsimp only
  rw [Client.call_of_unopened _ _ _ alike.stale missing,
    Client.call_of_unopened _ _ _ alike.stale' missing']
  constructor
  · simp only [CallReport.visible, alike.asking, alike.addr, ← alike.listener, Client.unopened]
  · exact {
      stale := alike.stale
      stale' := alike.stale'
      addr := alike.addr
      timeout := alike.timeout
      nextId := congrArg (· + 1) alike.nextId
      listener := by rw [alike.listener] }

/-- Two clients that are out of step are seen to behave alike in whatever is asked of them. -/
theorem run_visible (alike : Abandoned m m') (asks : List Ask) :
    (peer.run m asks).1.map CallReport.visible = (peer.run m' asks).1.map CallReport.visible := by
  -- The two stay abandoned up to the call in which a connection opens, and are the same after it.
  induction asks generalizing m m' with
  | nil => rfl
  | cons ask asks ih =>
    rw [run_cons, run_cons, List.map_cons, List.map_cons]
    by_cases opened : ∃ line, (peer.accept m.listener).1 = .opened line
    · obtain ⟨line, opened⟩ := opened
      rw [alike.call_of_opened ask opened]
    · obtain ⟨same, alike'⟩ := alike.call_of_unopened ask (not_exists.1 opened)
      rw [same, ih alike']

end Abandoned

end Peer

namespace CallReport

-- A call that writes asks for no connection but one that it has asked for before it writes.
theorem WritesAfter.opening_mem {r : CallReport} {acts : List Act} {opening : Opening}
    (writes : r.WritesAfter acts) (asked : .opening opening ∈ r.acts) : .opening opening ∈ acts := by
  obtain ⟨written, later, split, -, awaits⟩ := writes
  rw [split] at asked
  rcases List.mem_append.1 asked with before | behind
  · exact before
  · rcases List.mem_cons.1 behind with same | behind
    · exact nomatch same
    · exact absurd (awaits _ behind) not_false

end CallReport

namespace Client

/-- A call that opens a connection goes on like a call of a client that has just been connected, but
for the ids used before. -/
theorem call_of_opening (c : Client) (method : String) (params : ParamMap) (e : Episode)
    (opened : .opening .opened ∈ (c.call method params e).acts) :
    c.call method params e
      = { fresh c.addr c.timeout with nextId := c.nextId + 1 }.exchange (c.asking method params)
          ((c.call method params e).reopening c.addr .opened) e.toExchange := by
  cases stale : c.stale with
  | false =>
    have before := (call_usesConnection method params e stale).opening_mem opened
    exact nomatch List.mem_singleton.1 before
  | true =>
    by_cases succeeds : e.opening = .opened
    · rw [CallReport.reopening, call_request, call_of_opened method params e stale succeeds]
      rfl
    · rw [call_of_unopened method params e stale succeeds] at opened
      simp [Request.announcement, Ne.symm succeeds] at opened

theorem run_of_opening (c : Client) (turns : List Turn) :
    ∀ r ∈ c.run turns, .opening .opened ∈ r.acts → ∃ x,
      r = { fresh c.addr c.timeout with nextId := r.request.id + 1 }.exchange r.request
        (r.reopening c.addr .opened) x := by
  induction turns generalizing c with
  | nil => exact fun r mem => nomatch mem
  | cons turn turns ih =>
    intro r mem opened
    rcases List.mem_cons.1 mem with rfl | mem
    · refine ⟨turn.episode.toExchange, ?_⟩
      rw [call_request]
      exact call_of_opening c turn.method turn.params turn.episode opened
    · have later := ih _ r mem opened
      rwa [call_addr, call_timeout] at later

end Client

namespace Peer

variable {σ κ : Type}

/-- Two runs of a client of one configuration, of which each has just ended a call without an answer
and is to send its next request under the same id, go on alike before the same listener, whatever
has happened on the connections that they abandon and whatever still happens there. A call that
opens a connection goes on like one of a client that has just been connected, but for the ids. -/
theorem run_of_abandoned (peer : Peer σ κ) (addr : String) (timeout : Duration)
    (past past' : List Turn) {last last' : CallReport}
    (ends : ((Client.fresh addr timeout).run past).getLast? = some last)
    (ends' : ((Client.fresh addr timeout).run past').getLast? = some last')
    (unanswered : last.outcome.isAnswer = false) (unanswered' : last'.outcome.isAnswer = false)
    (sameId : last.client.nextId = last'.client.nextId)
    (listener : σ) (line line' : κ) (asks : List Ask) :
    let reports := (peer.run ⟨last.client, listener, line⟩ asks).1
    let reports' := (peer.run ⟨last'.client, listener, line'⟩ asks).1
    reports.map CallReport.visible = reports'.map CallReport.visible ∧
      ∀ r ∈ reports, .opening .opened ∈ r.acts → ∃ x,
        r = { Client.fresh addr timeout with nextId := r.request.id + 1 }.exchange r.request
          (r.reopening addr .opened) x := by
  have alike : Abandoned (⟨last.client, listener, line⟩ : Meeting σ κ)
      ⟨last'.client, listener, line'⟩ := {
    stale := by
      rw [Client.client_of_getLast? ends, Client.after_stale ends, unanswered]
      rfl
    stale' := by
      rw [Client.client_of_getLast? ends', Client.after_stale ends', unanswered']
      rfl
    addr := by
      simp only [Client.client_of_getLast? ends, Client.client_of_getLast? ends', Client.after_addr]
    timeout := by
      simp only [Client.client_of_getLast? ends, Client.client_of_getLast? ends', Client.after_timeout]
    nextId := sameId
    listener := rfl }
  refine ⟨alike.run_visible asks, fun r mem opened => ?_⟩
  -- Of the second part nothing depends on the peer, so it is read off the run of the client alone.
  obtain ⟨turns, -, reports, -⟩ := peer.run_eq asks ⟨last.client, listener, line⟩
  rw [reports] at mem
  have later := Client.run_of_opening last.client turns r mem opened
  rwa [Client.client_of_getLast? ends, Client.after_addr, Client.after_timeout] at later

/-- One client has lost its connection while it wrote, the other one was cancelled and has the
beginning of a response on its buffer. The first attempt to connect again is refused. -/
theorem run_of_abandoned_refused :
    let peer : Peer (List (Attempt Unit)) Unit :=
      ⟨fun attempts => (attempts.headD .cancelled, attempts.tail),
        fun _ _ => ⟨.complete, [.closed], .deadline⟩, fun line _ => line⟩
    let c := Client.fresh "./rpc.sock" .minute
    let lost := c.call "first" .empty ⟨⟨.failed 0 .brokenPipe, [], .deadline⟩, .opened⟩
    let cancelled := c.call "second" .empty ⟨⟨.complete, [.bytes 0x7B []], .cancelled⟩, .opened⟩
    let attempts := [.failed .connectionRefused, .opened ()]
    let asks : List Ask := [⟨"third", .empty⟩, ⟨"fourth", .empty⟩]
    (peer.run ⟨lost.client, attempts, ()⟩ asks).1.map CallReport.visible
      = (peer.run ⟨cancelled.client, attempts, ()⟩ asks).1.map CallReport.visible := by
  intro peer c lost cancelled attempts asks
  have ends : (c.run [⟨⟨"first", .empty⟩, ⟨⟨.failed 0 .brokenPipe, [], .deadline⟩, .opened⟩⟩]).getLast?
      = some lost := rfl
  have ends' : (c.run [⟨⟨"second", .empty⟩,
      ⟨⟨.complete, [.bytes 0x7B []], .cancelled⟩, .opened⟩⟩]).getLast? = some cancelled := rfl
  exact (run_of_abandoned peer "./rpc.sock" .minute _ _ ends ends' rfl rfl rfl attempts () () asks).1

end Peer

end AccelControl
