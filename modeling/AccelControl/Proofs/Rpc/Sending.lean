import AccelControl.Proofs.Rpc.Conduct
import AccelControl.Proofs.Rpc.Request

/-! Requests are sent at most once, each under an id of its own.

The ids count the calls, whatever the calls come to. What a call writes it writes in one go, on the
connection that it has found or opened, and no connection is opened after that. A call that is told
the id of a response has written all of its request, and with it its id.
-/

set_option autoImplicit false

namespace AccelControl

/-- Whether an outcome means that a response has arrived and that its id has been looked at. -/
def Outcome.isIdentified : Outcome → Bool
  | .ok _ | .error (.remote ..) | .error .missingResult | .error (.idMismatch ..) => true
  | _ => false

namespace Client

section exchange

variable (c : Client) (request : Request) (acts : List Act) (x : Exchange)

-- A request that could not be written is not answered, not even by a response to another one.
theorem complete_of_identified
    (identified : (c.exchange request acts x).outcome.isIdentified = true) :
    x.sending = .complete := by
  cases sending : x.sending with
  | complete => rfl
  | failed count error =>
    simp only [exchange, sending] at identified
    cases identified
  | interrupted count reason =>
    simp only [exchange, sending] at identified
    cases reason with
    | deadline => cases identified
    | cancelled => cases identified

end exchange

variable (c : Client) (method : String) (params : ParamMap) (e : Episode)

theorem unopened_isIdentified (opening : Opening) :
    (c.unopened opening).isIdentified = false := by
  cases opening <;> rfl

theorem call_identified (identified : (c.call method params e).outcome.isIdentified = true) :
    (c.stale = true → e.opening = .opened) ∧ e.sending = .complete := by
  rcases c.opens_or_unopened e with opens | ⟨stale, unopened⟩
  · rw [call_of_opens method params e opens] at identified
    exact ⟨opens, complete_of_identified _ _ _ _ identified⟩
  · rw [call_of_unopened method params e stale unopened, unopened_isIdentified] at identified
    exact nomatch identified

structure SendsOnce (r : CallReport) (addr : String) : Prop where
  /-- The bytes of its request are the text of an object with the version, the method, the id and, if
  there are any, the parameters. -/
  text : r.request.bytes = (Json.object ([("jsonrpc", .string "2.0"),
    ("method", .string r.request.method), ("id", .ofUInt64 r.request.id)]
      ++ if r.request.params.members = [] then []
        else [("params", .object r.request.params.members)])).bytes
  /-- Whoever takes values off the connection finds this object when all of the text is there, and
  nothing before. -/
  framed : r.request.params.toJson.FloatFree →
    r.request.params.toJson.depth < Json.greatestDepth →
    Json.Framed r.request.bytes (.object r.request.members)
  /-- However the call ends, its id is used up. -/
  spent : r.client.nextId = r.request.id + 1
  /-- It writes the first bytes of its request, in one go, to the connection that is there or to one
  that it has opened, or it asks for a connection in vain and writes nothing. -/
  once : (r.UsesConnection ∨ r.WritesAfter (r.reopening addr .opened)) ∧
      (∃ written, r.writings = [written] ∧ written <+: r.request.bytes) ∨
    (∃ opening, opening ≠ .opened ∧ r.acts = r.reopening addr opening) ∧ r.writings = []
  /-- It has written all of its request if a response has arrived and has been looked at for its id. -/
  whole : r.outcome.isIdentified = true → r.writings = [r.request.bytes]

theorem call_sendsOnce : SendsOnce (c.call method params e) c.addr where
  text := (c.call method params e).request.bytes_spelled
  framed := (c.call method params e).request.framed_members
  spent := by
    rw [call_nextId, call_request]
    rfl
  once := by
    cases stale : c.stale with
    | false =>
      have writes := call_usesConnection method params e stale
      exact .inl ⟨.inl writes, writes.writings rfl⟩
    | true =>
      rcases call_reopens method params e stale with writes | ⟨opening, unopened, acts⟩
      · exact .inl ⟨.inr writes, writes.writings rfl⟩
      · refine .inr ⟨⟨opening, unopened, acts⟩, ?_⟩
        rw [CallReport.writings, acts]
        rfl
  whole identified := by
    obtain ⟨opens, complete⟩ := call_identified c method params e identified
    rw [call_writings c method params e opens, complete, call_request]
    rfl

theorem run_sendsOnce (turns : List Turn) : ∀ r ∈ c.run turns, SendsOnce r c.addr := by
  induction turns generalizing c with
  | nil => exact fun r mem => nomatch mem
  | cons turn turns ih =>
    intro r mem
    rcases List.mem_cons.1 mem with rfl | mem
    · exact call_sendsOnce c turn.method turn.params turn.episode
    · have later := ih _ r mem
      rwa [call_addr] at later

/-- Everything that is written in a run, with the request that it is written for. -/
def sendings (reports : List CallReport) : List (Request × Bytes) :=
  reports.flatMap fun r => r.writings.map fun written => (r.request, written)

theorem run_numbered (addr : String) (timeout : Duration) {turns : List Turn}
    (few : turns.length < UInt64.size) :
    ((fresh addr timeout).run turns).map
        (fun r => (r.request.method, r.request.id.toNat, r.request.params))
      = turns.mapIdx fun k turn => (turn.method, k + 1, turn.params) := by
  have ids := requestsFrom_ids (turns.map (·.toAsk)) 0 (by simpa using few)
  rw [show UInt64.ofNat (0 + 1) = (fresh addr timeout).nextId from rfl, ← run_requests,
    List.map_map] at ids
  apply List.ext_getElem?
  intro k
  simpa [List.getElem?_mapIdx, Function.comp_def] using congrArg (·[k]?) ids

theorem run_ids_ordered (addr : String) (timeout : Duration) {turns : List Turn}
    (few : turns.length < UInt64.size) : ((fresh addr timeout).run turns).Pairwise
      fun earlier later => earlier.request.id < later.request.id := by
  have ordered : (turns.mapIdx fun k turn => (turn.method, k + 1, turn.params)).Pairwise
      fun earlier later => earlier.2.1 < later.2.1 := by
    rw [List.pairwise_iff_getElem]
    intro i j _ _ less
    simpa using less
  rw [← run_numbered addr timeout few, List.pairwise_map] at ordered
  exact ordered.imp UInt64.lt_iff_toNat_lt.2

/-- In a run of fewer than `2 ^ 64` calls, whatever happens to them, the requests are those asked for,
and their ids count from one on. Each is spelled with its id and sent at most once, and the ids of the
requests written grow from one to the next. -/
theorem run_sends_once (addr : String) (timeout : Duration) (turns : List Turn)
    (few : turns.length < UInt64.size) :
    let reports := (fresh addr timeout).run turns
    reports.map (fun r => (r.request.method, r.request.id.toNat, r.request.params))
        = turns.mapIdx (fun k turn => (turn.method, k + 1, turn.params)) ∧
      (∀ r ∈ reports, SendsOnce r addr) ∧
      (sendings reports).Pairwise fun earlier later => earlier.1.id < later.1.id := by
  intro reports
  have sends := run_sendsOnce (fresh addr timeout) turns
  refine ⟨run_numbered addr timeout few, sends, ?_⟩
  rw [sendings, List.pairwise_flatMap]
  constructor
  · intro r mem
    rcases (sends r mem).once with ⟨-, written, once, -⟩ | ⟨-, none⟩
    · rw [once]
      exact List.pairwise_singleton _ _
    · rw [none]
      exact .nil
  · refine (run_ids_ordered addr timeout few).imp fun less x mem y mem' => ?_
    obtain ⟨written, -, rfl⟩ := List.mem_map.1 mem
    obtain ⟨written', -, rfl⟩ := List.mem_map.1 mem'
    exact less

/-- A call that gets no further than the first byte, one that is refused a connection, and one that
meets with silence on another connection. -/
def brokenTurns : List Turn :=
  [⟨⟨"first", .empty⟩, ⟨⟨.failed 1 .brokenPipe, [], .deadline⟩, .opened⟩⟩,
    ⟨⟨"second", .empty⟩, ⟨⟨.complete, [], .deadline⟩, .failed .connectionRefused⟩⟩,
    ⟨⟨"third", .empty⟩, ⟨⟨.complete, [], .deadline⟩, .opened⟩⟩]

theorem run_sends_once_brokenTurns :
    brokenTurns.length < UInt64.size ∧
      (sendings ((fresh "./rpc.sock" .minute).run brokenTurns)).map (fun (r, s) => (r.id, s))
        = [(1, Utf8.ofString "\x7b"),
          (3, Utf8.ofString "\x7b\"jsonrpc\":\"2.0\",\"method\":\"third\",\"id\":3\x7d")] ∧
      (sendings ((fresh "./rpc.sock" .minute).run brokenTurns)).Pairwise
        fun earlier later => earlier.1.id < later.1.id := by
  have few : brokenTurns.length < UInt64.size := by decide
  exact ⟨few, by decide +kernel, (run_sends_once "./rpc.sock" .minute brokenTurns few).2.2⟩

end Client

end AccelControl
