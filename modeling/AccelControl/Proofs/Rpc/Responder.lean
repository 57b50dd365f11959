import AccelControl.Proofs.Rpc.Classification
import AccelControl.Proofs.Rpc.Request
import AccelControl.Proofs.Rpc.Synchronisation

/-! Calls of a target that answers.

Between two calls the connection is in step and nothing but white space is on the buffer or under way.
A call keeps this, and it ends with what the response tells.
-/

set_option autoImplicit false

namespace AccelControl

theorem RemoteError.told_normalize {fields : List (String × Json)} {i : Json.Integer} {code : Int64}
    {message : String} (distinct : (fields.map (·.1)).Nodup)
    (hasCode : ("code", .number (.integer i)) ∈ fields) (same : i.value = code.toInt)
    (hasMessage : ("message", .string message) ∈ fields) :
    Told (.object (Json.normalizeMembers fields)) ⟨code, message⟩ :=
  .named (Json.get?_normalizeMembers_of_mem distinct hasCode) same
    (.inr (Json.get?_normalizeMembers_of_mem distinct hasMessage))

namespace Responder.Reply

variable {reply : Reply} {id : UInt64}

theorem distinct_members (reply : Reply) (id : UInt64) : ((reply.members id).map (·.1)).Nodup := by
  have distinct := reply.distinct
  simp only [List.map_append, List.map_cons] at distinct
  simpa only [members, List.map_append, List.map_cons] using distinct

theorem mem_members {member : String × Json} (mem : member ∈ reply.front ++ reply.back) :
    member ∈ reply.members id := by
  rcases List.mem_append.1 mem with mem | mem
  · exact List.mem_append_left _ mem
  · exact List.mem_append_right _ (List.mem_cons_of_mem _ mem)

theorem get?_id : Members.get? "id" (Json.normalizeMembers (reply.members id)) = some (.ofUInt64 id) :=
  Json.get?_normalizeMembers_of_mem (reply.distinct_members id)
    (List.mem_append_right _ List.mem_cons_self)

theorem failure_none (untold : ∀ member ∈ reply.front ++ reply.back,
      member.1 = "error" → member.2 = .null) :
    Response.Failure (Members.get? "error" (Json.normalizeMembers (reply.members id))) none := by
  by_cases present : ("error", .null) ∈ reply.front ++ reply.back
  · rw [Json.get?_normalizeMembers_of_mem (reply.distinct_members id) (mem_members present)]
    exact .null
  · have absent : ∀ member ∈ reply.front ++ reply.back, member.1 ≠ "error" := by
      intro member mem named
      rw [← named, ← untold member mem named] at present
      exact present mem
    rw [Json.get?_normalizeMembers_of_absent]
    · exact .missing
    · obtain ⟨front, back⟩ := List.forall_mem_append.1 absent
      have apart : "id" ≠ "error" := by decide
      exact List.forall_mem_append.2 ⟨front, List.forall_mem_cons.2 ⟨apart, back⟩⟩

/-- A response means for its request what it tells. -/
theorem conclude_eq {verdict : Verdict} (tells : reply.Tells verdict) :
    Client.conclude id (reply.toJson id).normalize = (verdict.outcome, false) := by
  have object : (reply.toJson id).normalize = .object (Json.normalizeMembers (reply.members id)) := rfl
  have fields := Response.HasFields.named (Json.normalizeMembers (reply.members id))
  rw [get?_id] at fields
  cases verdict with
  | result v =>
    have result := Json.get?_normalizeMembers_of_mem (reply.distinct_members id) (mem_members tells.1)
    rw [result] at fields
    rw [object, Client.conclude_of_parts id fields (failure_none tells.2),
      if_pos (Response.answers_iff.2 (.inl rfl))]
    rfl
  | failure code message =>
    obtain ⟨errorFields, i, hasError, distinct, hasCode, same, hasMessage⟩ := tells
    have error := Json.get?_normalizeMembers_of_mem (reply.distinct_members id) (mem_members hasError)
    have told := RemoteError.told_normalize distinct hasCode same hasMessage
    rw [error] at fields
    rw [object, Client.conclude_of_parts id fields (.told told),
      if_pos (Response.answers_iff.2 (.inl rfl))]
    rfl

theorem framed (reply : Reply) (plain : (reply.toJson id).FloatFree)
    (shallow : (reply.toJson id).depth ≤ Json.greatestDepth) {space : Bytes}
    (blank : ∀ b ∈ space, Json.isSpace b = true) :
    Json.Framed (space ++ (reply.before ++ (reply.toJson id).bytes)) (reply.toJson id).normalize :=
  ((Json.framed_bytes plain trivial shallow).behind_space reply.blank_before).behind_space blank

end Responder.Reply

namespace Responder

variable {σ : Type}

/-- A client and a target between two calls, of which the target will answer so many more. -/
structure Ready (m : Meeting σ Line) (rounds : List Round) : Prop where
  sync : m.client.stale = false
  blank : ∀ b ∈ m.client.buffer ++ m.line.underWay, Json.isSpace b = true
  inbox : m.line.inbox = []
  replies : m.line.replies = rounds.map (·.reply)

structure Answered (round : Round) (m : Meeting σ Line) (r : CallReport) (m' : Meeting σ Line) :
    Prop where
  outcome : r.outcome = round.verdict.outcome
  uses : r.UsesConnection
  nextId : m'.client.nextId = m.client.nextId + 1
  requests : m'.line.requests
    = m.line.requests ++ [m.client.asking round.ask.method round.ask.params]
  listener : m'.listener = m.listener

namespace Ready

variable {m : Meeting σ Line} {round : Round} {rounds : List Round}

theorem read (ready : Ready m (round :: rounds)) :
    m.line.read (m.client.asking round.ask.method round.ask.params).bytes
      = some (m.client.asking round.ask.method round.ask.params, []) := by
  have framed := Request.framed_bytes (r := m.client.asking round.ask.method round.ask.params)
    round.plain_params (round.shallow_request m.client.nextId)
  have taken := framed.whole []
  rw [List.append_nil] at taken
  simp only [Line.read, ready.inbox, List.nil_append, taken, Request.ofJson?_toJson, Option.map_some]

theorem exchange (ready : Ready m (round :: rounds)) :
    m.line.exchange (m.client.asking round.ask.method round.ask.params).bytes
      = ⟨.complete, round.reply.arrivals (m.line.underWay ++ round.reply.bytes m.client.nextId),
          .deadline⟩ := by
  simp only [Line.exchange, ready.read, ready.replies, List.map_cons]
  rfl

/-- The response is received in whatever pieces it arrives, and nothing but the white space behind it
is left. -/
theorem receive (ready : Ready m (round :: rounds)) (id : UInt64) :
    let wait := Client.receive m.client.buffer
      (round.reply.arrivals (m.line.underWay ++ round.reply.bytes id))
    wait.received = .value (round.reply.toJson id).normalize ∧
      wait.buffer ++ arrivedBytes wait.unread = round.reply.after := by
  have framed := round.reply.framed (round.plain_reply id) (round.shallow_reply id) ready.blank
  apply Client.receive_framed framed _ m.client.buffer
  rw [round.reply.whole, Reply.bytes]
  simp only [List.append_assoc]

theorem settle (ready : Ready m (round :: rounds)) {r : CallReport}
    (written : r.written = (m.client.asking round.ask.method round.ask.params).bytes) :
    m.line.settle r = ⟨[], m.line.requests ++ [m.client.asking round.ask.method round.ask.params],
      rounds.map (·.reply), arrivedBytes r.unread⟩ := by
  simp only [Line.settle, written, ready.read, ready.replies, List.map_cons]

/-- A call is answered, and leaves a client and a target between two calls. -/
theorem call (accept : σ → Attempt Line × σ) (ready : Ready m (round :: rounds)) :
    Answered round m ((responder accept).call m round.ask).1 ((responder accept).call m round.ask).2 ∧
      Ready ((responder accept).call m round.ask).2 rounds := by
  obtain ⟨received, left⟩ := ready.receive m.client.nextId
  have uses := Client.call_usesConnection round.ask.method round.ask.params
    ⟨m.line.exchange (m.client.asking round.ask.method round.ask.params).bytes, .opened⟩ ready.sync
  have held : m.client.held = m.client.buffer := by simp [Client.held, ready.sync]
  have receives : m.client.Receives
      ⟨m.line.exchange (m.client.asking round.ask.method round.ask.params).bytes, .opened⟩
      (round.reply.toJson m.client.nextId).normalize := by
    refine ⟨fun _ => rfl, by rw [ready.exchange], ?_⟩
    rw [held, ready.exchange]
    exact received
  have report := Client.call_of_receives receives round.ask.method round.ask.params
  rw [Peer.call_of_sync round.ask ready.sync]
  dsimp only [responder] at report ⊢
  -- From here on only what is known of the report counts, not how it came about.
  generalize m.client.call round.ask.method round.ask.params _ = r at uses report ⊢
  obtain ⟨outcome, written, client, unread⟩ := report
  rw [Reply.conclude_eq round.tells] at outcome client
  rw [held, ready.exchange] at client unread
  rw [ready.settle written]
  constructor
  · exact {
      outcome := outcome
      uses := uses
      nextId := by rw [client]; rfl
      requests := rfl
      listener := rfl }
  · exact {
      sync := by rw [client]
      blank := by
        rw [client, unread]
        intro b mem
        exact round.reply.blank_after b (left ▸ mem)
      inbox := rfl
      replies := rfl }

end Ready

/-- What a run comes to of which every call is answered. -/
theorem Ready.run (accept : σ → Attempt Line × σ) {rounds : List Round} {m : Meeting σ Line}
    (ready : Ready m rounds) :
    let reports := ((responder accept).run m (rounds.map (·.ask))).1
    let m' := ((responder accept).run m (rounds.map (·.ask))).2
    reports.map (·.outcome) = rounds.map (·.verdict.outcome) ∧ (∀ r ∈ reports, r.UsesConnection) ∧
      m'.line.requests = m.line.requests ++ Client.requestsFrom m.client.nextId (rounds.map (·.ask)) ∧
      m'.listener = m.listener := by
  -- `Ready` is what one call hands on to the next.
  induction rounds generalizing m with
  | nil => exact ⟨rfl, fun _ mem => (nomatch mem), (List.append_nil _).symm, rfl⟩
  | cons round rounds ih =>
    obtain ⟨answered, ready'⟩ := ready.call accept
    obtain ⟨outcomes, uses, requests, listener⟩ := ih ready'
    rw [List.map_cons, Peer.run_cons]
    refine ⟨?_, ?_, ?_, ?_⟩
    · rw [List.map_cons, List.map_cons, answered.outcome, outcomes]
    · intro r mem
      rcases List.mem_cons.1 mem with rfl | mem
      · exact answered.uses
      · exact uses r mem
    · rw [requests, answered.requests, answered.nextId, List.append_assoc]
      rfl
    · rw [listener, answered.listener]

/-- However a target words its responses and in whatever pieces they arrive, as long as they come in
time, every call of a run ends with what the response tells. It does so on the connection that the
client began with, without any attempt to open another one or any report of one, and the target reads
what was asked, under the ids from one on. -/
theorem run_answered {σ : Type} (accept : σ → Attempt Line × σ) (listener : σ) (addr : String)
    (timeout : Duration) (rounds : List Round) (few : rounds.length < UInt64.size) :
    let asks := rounds.map (·.ask)
    let start : Meeting σ Line :=
      ⟨Client.fresh addr timeout, listener, .opened (rounds.map (·.reply))⟩
    let reports := ((responder accept).run start asks).1
    let final := ((responder accept).run start asks).2
    reports.map (·.outcome) = rounds.map (·.verdict.outcome) ∧ (∀ r ∈ reports, r.UsesConnection) ∧
      final.line.requests.map (fun r => (r.method, r.id.toNat, r.params))
        = asks.mapIdx (fun i ask => (ask.method, i + 1, ask.params)) ∧
      final.listener = listener := by
  intro asks start reports final
  have ready : Ready start rounds := {
    sync := rfl
    blank := fun _ mem => nomatch mem
    inbox := rfl
    replies := rfl }
  obtain ⟨outcomes, uses, requests, stays⟩ := ready.run accept
  refine ⟨outcomes, uses, ?_, stays⟩
  have ids := Client.requestsFrom_ids asks 0 (by simpa [asks] using few)
  simp only [Nat.zero_add] at ids
  rw [← ids]
  exact congrArg _ requests

/-- A call without parameters, answered by a null that arrives byte by byte between white space. The
error beside it is null too. -/
def nullRound : Round where
  ask := ⟨"reset", .empty⟩
  reply := {
    front := [("jsonrpc", .string "2.0")]
    back := [("result", .null), ("error", .null)]
    before := [0x20]
    after := [0x0A, 0x0A]
    cut := fun s => s.map (·, [])
    blank_before := by simp [Json.isSpace]
    blank_after := by simp [Json.isSpace]
    distinct := by simp
    whole := fun s => by simp [List.flatMap_map] }
  verdict := .result .null
  plain_params := trivial
  shallow_request := fun _ => by exact Nat.le_of_ble_eq_true rfl
  plain_reply := fun _ => ⟨trivial, trivial, trivial, trivial, trivial⟩
  shallow_reply := fun _ => Nat.le_of_ble_eq_true rfl
  tells := ⟨by simp, by simp⟩

/-- A call with a parameter, answered by a failure that arrives in one piece. -/
def failureRound : Round where
  ask := ⟨"scan", ParamMap.empty.insert "name" (.string "mlx5") trivial⟩
  reply := {
    front := [("error", .object [("code", .number (.integer ⟨-32601, by decide, by decide⟩)),
      ("message", .string "Method not found")])]
    back := []
    before := []
    after := []
    cut := fun
      | [] => []
      | b :: s => [(b, s)]
    blank_before := by simp [Json.isSpace]
    blank_after := by simp [Json.isSpace]
    distinct := by simp
    whole := fun s => by cases s <;> simp }
  verdict := .failure (-32601) "Method not found"
  plain_params := ⟨trivial, trivial⟩
  shallow_request := fun _ => by exact Nat.le_of_ble_eq_true rfl
  plain_reply := fun _ => ⟨⟨trivial, trivial, trivial⟩, trivial, trivial⟩
  shallow_reply := fun _ => Nat.le_of_ble_eq_true rfl
  tells := by
    refine ⟨_, ⟨-32601, by decide, by decide⟩, List.mem_singleton_self _, ?_, ?_, ?_, ?_⟩
    · decide
    · exact List.mem_cons_self
    · decide
    · exact List.mem_cons_of_mem _ (List.mem_singleton_self _)

theorem run_answered_null_failure :
    [nullRound, failureRound].length < UInt64.size ∧
    let reports := ((responder fun _ : Unit => (.cancelled, ())).run
      ⟨Client.fresh "./rpc.sock" .minute, (), .opened [nullRound.reply, failureRound.reply]⟩
      [nullRound.ask, failureRound.ask]).1
    reports.map (·.outcome) = [.ok .null, .error (.remote (-32601) "Method not found")] := by
  have few : [nullRound, failureRound].length < UInt64.size := by decide
  exact ⟨few, (run_answered (fun _ => (.cancelled, ())) () "./rpc.sock" .minute
    [nullRound, failureRound] few).1⟩

end Responder

end AccelControl
