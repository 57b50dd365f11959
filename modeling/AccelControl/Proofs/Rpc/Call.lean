import AccelControl.Proofs.Rpc.Receive

/-! What a call is made of.

A call on a connection that is in step is an exchange there. On one that is out of step it is an
exchange on a new connection, if that opens, and nothing otherwise. An exchange changes nothing in a
client but its buffer and whether it is stale.
-/

set_option autoImplicit false

namespace AccelControl

/-- What is done behind a written request: reading, and reporting the response. -/
def Act.awaits : Act → Prop
  | .reading _ | .report (.response ..) => True
  | _ => False

-- A view of acts that shows nothing of those that await a response.
theorem Act.filterMap_of_awaits {β : Type} {view : Act → Option β}
    (silent : ∀ act : Act, act.awaits → view act = none) {later : List Act}
    (awaits : ∀ act ∈ later, act.awaits) : later.filterMap view = [] :=
  List.filterMap_eq_nil_iff.2 fun act mem => silent act (awaits act mem)

def Act.written? : Act → Option Bytes
  | .writing bytes => some bytes
  | _ => none

theorem Act.written?_of_awaits (act : Act) (awaits : act.awaits) : act.written? = none := by
  cases act with
  | writing bytes => exact absurd awaits not_false
  | report event => rfl
  | opening result => rfl
  | reading arrival => rfl

namespace Sending

def share : Sending → Bytes → Bytes
  | .complete, s => s
  | .failed count _, s | .interrupted count _, s => s.take count

theorem share_prefix (sending : Sending) (s : Bytes) : sending.share s <+: s := by
  cases sending with
  | complete => exact List.prefix_rfl
  | failed count error => exact List.take_prefix count s
  | interrupted count reason => exact List.take_prefix count s

end Sending

namespace Request

def announcement (r : Request) : Act := .report (.request r.method r.id r.text)

end Request

namespace CallReport

/-- After these acts the request is written, or as much of it as the connection takes. Whatever
follows is done to await the response. -/
def WritesAfter (r : CallReport) (acts : List Act) : Prop :=
  ∃ written later, r.acts = acts ++ .writing written :: later ∧ written <+: r.request.bytes ∧
    ∀ act ∈ later, act.awaits

def UsesConnection (r : CallReport) : Prop := r.WritesAfter [r.request.announcement]

def reopening (r : CallReport) (addr : String) (opening : Opening) : List Act :=
  [r.request.announcement, .report (.reconnecting addr), .opening opening]

/-- The call reports that the connection is out of step and asks for another one before it writes
anything. If none opens it writes nothing. -/
def Reopens (r : CallReport) (addr : String) : Prop :=
  r.WritesAfter (r.reopening addr .opened) ∨
    ∃ opening, opening ≠ .opened ∧ r.acts = r.reopening addr opening

def writings (r : CallReport) : List Bytes := r.acts.filterMap Act.written?

theorem writings_eq {r : CallReport} {acts : List Act} {written : Bytes} {later : List Act}
    (silent : acts.filterMap Act.written? = []) (split : r.acts = acts ++ .writing written :: later)
    (awaits : ∀ act ∈ later, act.awaits) : r.writings = [written] := by
  have first : Act.written? (.writing written) = some written := rfl
  rw [writings, split, List.filterMap_append, silent, List.nil_append,
    List.filterMap_cons_some first, Act.filterMap_of_awaits Act.written?_of_awaits awaits]

theorem written_eq (r : CallReport) : r.written = r.writings.flatten := by
  unfold written writings
  induction r.acts with
  | nil => rfl
  | cons act acts ih =>
    cases act with
    | writing bytes => exact congrArg (bytes ++ ·) ih
    | report event => exact ih
    | opening result => exact ih
    | reading arrival => exact ih

theorem UsesConnection.not_reopens {r : CallReport} (uses : r.UsesConnection) (addr : String) :
    ¬r.Reopens addr := by
  obtain ⟨written, later, acts, -⟩ := uses
  rintro (⟨written', later', acts', -⟩ | ⟨opening, -, acts'⟩)
  · simp [acts, reopening] at acts'
  · simp [acts, reopening] at acts'

end CallReport

namespace Client

theorem conclude_stale (id : UInt64) (raw : Json) :
    (conclude id raw).2 = !(conclude id raw).1.isAnswer := by
  unfold conclude
  cases Response.ofJson raw with
  | error m => rfl
  | ok response =>
    by_cases answers : response.answers id = true
    · simp only [answers, if_true, Response.outcome]
      cases response.error with
      | some e => rfl
      | none => cases response.result <;> rfl
    · simp only [answers, if_false, Bool.false_eq_true]
      rfl

theorem interrupted_isAnswer (c : Client) (method : String) (reason : Interruption) :
    (c.interrupted method reason).isAnswer = false := by
  cases reason <;> rfl

section exchange

variable {c : Client} {request : Request} {acts : List Act} {x : Exchange}

theorem exchange_of_value {v : Json} (complete : x.sending = .complete)
    (received : (receive c.buffer x.arrivals).received = .value v) : c.exchange request acts x = {
      request, outcome := (conclude request.id v).1
      client := { c with
        buffer := (receive c.buffer x.arrivals).buffer, stale := (conclude request.id v).2 }
      acts := acts ++ .writing request.bytes :: ((receive c.buffer x.arrivals).read.map .reading
        ++ [.report (.response request.method request.id v.render)])
      unread := (receive c.buffer x.arrivals).unread } := by
  simp only [exchange, complete, received, List.append_assoc, List.cons_append]

theorem awaits_of_mem_readings {arrivals : List Arrival} :
    ∀ act ∈ arrivals.map Act.reading, act.awaits := by
  intro act mem
  obtain ⟨arrival, -, rfl⟩ := List.mem_map.1 mem
  trivial

variable (c request acts x)

-- An exchange without a value leaves its connection stale and ends without an answer.
theorem exchange_cases :
    (∃ outcome buffer later unread, c.exchange request acts x = {
        request, outcome, client := { c with buffer, stale := true }
        acts := acts ++ .writing (x.sending.share request.bytes) :: later, unread } ∧
      outcome.isAnswer = false ∧ ∀ act ∈ later, act.awaits) ∨
    x.sending = .complete ∧ ∃ v, (receive c.buffer x.arrivals).received = .value v := by
  -- There are five ways in which an exchange ends, and only the last one gets as far as a value.
  unfold exchange
  cases x.sending with
  | failed count error => exact .inl ⟨_, _, [], _, rfl, rfl, fun _ mem => nomatch mem⟩
  | interrupted count reason =>
    have unanswered := c.interrupted_isAnswer request.method reason
    exact .inl ⟨_, _, [], _, rfl, unanswered, fun _ mem => nomatch mem⟩
  | complete =>
    cases received : (receive c.buffer x.arrivals).received with
    | failed error =>
      simp only [received]
      exact .inl ⟨_, _, _, _, rfl, receive_failed received, awaits_of_mem_readings⟩
    | interrupted =>
      have unanswered := c.interrupted_isAnswer request.method x.interruption
      simp only [received]
      exact .inl ⟨_, _, _, _, rfl, unanswered, awaits_of_mem_readings⟩
    | value v => exact .inr ⟨rfl, v, rfl⟩

@[simp] theorem exchange_request : (c.exchange request acts x).request = request := by
  rcases c.exchange_cases request acts x with
    ⟨outcome, buffer, later, unread, same, -⟩ | ⟨complete, v, received⟩
  · rw [same]
  · rw [exchange_of_value complete received]

theorem exchange_client :
    ∃ buffer stale, (c.exchange request acts x).client = { c with buffer, stale } := by
  rcases c.exchange_cases request acts x with
    ⟨outcome, buffer, later, unread, same, -⟩ | ⟨complete, v, received⟩
  · rw [same]
    exact ⟨buffer, true, rfl⟩
  · rw [exchange_of_value complete received]
    exact ⟨_, _, rfl⟩

theorem exchange_stale : (c.exchange request acts x).client.stale
    = !(c.exchange request acts x).outcome.isAnswer := by
  rcases c.exchange_cases request acts x with
    ⟨outcome, buffer, later, unread, same, unanswered, -⟩ | ⟨complete, v, received⟩
  · rw [same, unanswered]
    rfl
  · rw [exchange_of_value complete received]
    exact conclude_stale request.id v

-- Whatever an exchange comes to, it writes in one go as much of the request as is sent.
theorem exchange_acts : ∃ later, (c.exchange request acts x).acts
      = acts ++ .writing (x.sending.share request.bytes) :: later ∧
    ∀ act ∈ later, act.awaits := by
  rcases c.exchange_cases request acts x with
    ⟨outcome, buffer, later, unread, same, -, awaits⟩ | ⟨complete, v, received⟩
  · rw [same]
    exact ⟨later, rfl, awaits⟩
  · rw [exchange_of_value complete received, complete]
    refine ⟨_, rfl, fun act mem => ?_⟩
    rcases List.mem_append.1 mem with mem | mem
    · exact awaits_of_mem_readings act mem
    · rw [List.mem_singleton.1 mem]
      trivial

theorem exchange_writesAfter : (c.exchange request acts x).WritesAfter acts := by
  obtain ⟨later, split, awaits⟩ := c.exchange_acts request acts x
  refine ⟨_, later, split, ?_, awaits⟩
  rw [exchange_request]
  exact x.sending.share_prefix request.bytes

theorem exchange_writings (silent : acts.filterMap Act.written? = []) :
    (c.exchange request acts x).writings = [x.sending.share request.bytes] := by
  obtain ⟨later, split, awaits⟩ := c.exchange_acts request acts x
  exact CallReport.writings_eq silent split awaits

theorem exchange_answered (answered : (c.exchange request acts x).outcome.isAnswer = true) :
    x.sending = .complete ∧ ∃ v, (receive c.buffer x.arrivals).received = .value v := by
  rcases c.exchange_cases request acts x with
    ⟨outcome, buffer, later, unread, same, unanswered, -⟩ | arrives
  · rw [same, unanswered] at answered
    exact nomatch answered
  · exact arrives

end exchange

variable (c : Client)

def numbered : Client := { c with nextId := c.nextId + 1 }

def asking (method : String) (params : ParamMap) : Request := ⟨method, c.nextId, params⟩

/-- The bytes that have been read from the connection to which the next request goes, if it is not
replaced before. -/
def held (c : Client) : Bytes := if c.stale then [] else c.buffer

/-- The client that sends the next request, if there is a connection for it. -/
def prepared : Client := { c.numbered with buffer := c.held, stale := false }

/-- What a call does before it writes. -/
def preface (request : Request) : List Act :=
  request.announcement
    :: if c.stale then [.report (.reconnecting c.addr), .opening .opened] else []

-- Before a call writes it only reports and asks for a connection.
theorem filterMap_preface {β : Type} {view : Act → Option β}
    (reports : ∀ event, view (.report event) = none)
    (openings : ∀ result, view (.opening result) = none) (request : Request) :
    (c.preface request).filterMap view = [] := by
  rw [preface, Request.announcement, List.filterMap_cons_none (reports _)]
  split
  · rw [List.filterMap_cons_none (reports _), List.filterMap_cons_none (openings _),
      List.filterMap_nil]
  · rfl

def unopened : Opening → Outcome
  | .failed error => .error (.connect c.addr error)
  | .opened | .cancelled => .cancelled

theorem unopened_isAnswer (opening : Opening) : (c.unopened opening).isAnswer = false := by
  cases opening <;> rfl

section call

variable {c}
variable (method : String) (params : ParamMap) (e : Episode)

theorem call_of_sync (sync : c.stale = false) : c.call method params e
    = c.numbered.exchange (c.asking method params) [(c.asking method params).announcement]
        e.toExchange := by
  simp only [call, sync]
  rfl

theorem call_of_opened (stale : c.stale = true) (opened : e.opening = .opened) :
    c.call method params e
      = c.numbered.reopened.exchange (c.asking method params)
          [(c.asking method params).announcement, .report (.reconnecting c.addr), .opening .opened]
          e.toExchange := by
  simp only [call, stale, opened]
  rfl

theorem call_of_opens (opens : c.stale = true → e.opening = .opened) : c.call method params e
    = c.prepared.exchange (c.asking method params) (c.preface (c.asking method params))
        e.toExchange := by
  cases stale : c.stale with
  | false =>
    rw [call_of_sync method params e stale]
    simp only [prepared, preface, held, numbered, stale, Bool.false_eq_true, if_false]
  | true =>
    rw [call_of_opened method params e stale (opens stale)]
    simp only [prepared, preface, held, stale, if_true]
    rfl

theorem call_of_unopened (stale : c.stale = true) (unopened : e.opening ≠ .opened) :
    c.call method params e = {
      request := c.asking method params, outcome := c.unopened e.opening, client := c.numbered
      acts := [(c.asking method params).announcement, .report (.reconnecting c.addr),
        .opening e.opening]
      unread := e.arrivals } := by
  obtain ⟨addr, timeout, nextId, buffer, flag⟩ := c
  cases stale
  simp only [call, if_true]
  cases opening : e.opening with
  | opened => exact absurd opening unopened
  | failed error => rfl
  | cancelled => rfl

variable (c)

-- These are the two ways that a call takes: an exchange, or none.
theorem opens_or_unopened :
    (c.stale = true → e.opening = .opened) ∨ c.stale = true ∧ e.opening ≠ .opened := by
  by_cases opened : e.opening = .opened
  · exact .inl fun _ => opened
  · cases stale : c.stale with
    | false => exact .inl nofun
    | true => exact .inr ⟨rfl, opened⟩

@[simp] theorem call_request : (c.call method params e).request = c.asking method params := by
  rcases c.opens_or_unopened e with opens | ⟨stale, unopened⟩
  · rw [call_of_opens method params e opens, exchange_request]
  · rw [call_of_unopened method params e stale unopened]

/-- A call changes nothing in a client but the id of the next request, the buffer and whether the
connection is stale. -/
theorem call_client :
    ∃ buffer stale, (c.call method params e).client = { c.numbered with buffer, stale } := by
  rcases c.opens_or_unopened e with opens | ⟨stale, unopened⟩
  · rw [call_of_opens method params e opens]
    exact exchange_client c.prepared _ _ _
  · rw [call_of_unopened method params e stale unopened]
    exact ⟨_, _, rfl⟩

/-- Unless no connection opens, a call writes in one go as much of its request as is sent. -/
theorem call_writings (opens : c.stale = true → e.opening = .opened) :
    (c.call method params e).writings = [e.sending.share (c.asking method params).bytes] := by
  rw [call_of_opens method params e opens]
  exact exchange_writings _ _ _ _ (c.filterMap_preface (fun _ => rfl) (fun _ => rfl) _)

theorem eq_share_of_mem_writings {written : Bytes}
    (mem : written ∈ (c.call method params e).writings) :
    written = e.sending.share (c.call method params e).request.bytes := by
  rw [call_request]
  rcases c.opens_or_unopened e with opens | ⟨stale, unopened⟩
  · rw [call_writings c method params e opens] at mem
    exact List.mem_singleton.1 mem
  · rw [call_of_unopened method params e stale unopened] at mem
    exact nomatch mem

@[simp] theorem call_addr : (c.call method params e).client.addr = c.addr := by
  obtain ⟨buffer, stale, same⟩ := call_client c method params e
  rw [same]
  rfl

@[simp] theorem call_timeout : (c.call method params e).client.timeout = c.timeout := by
  obtain ⟨buffer, stale, same⟩ := call_client c method params e
  rw [same]
  rfl

@[simp] theorem call_nextId : (c.call method params e).client.nextId = c.nextId + 1 := by
  obtain ⟨buffer, stale, same⟩ := call_client c method params e
  rw [same]
  rfl

end call

end Client

end AccelControl
