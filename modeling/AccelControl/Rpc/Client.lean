import AccelControl.Json.Stream
import AccelControl.Rpc.Log
import AccelControl.Rpc.Request
import AccelControl.Rpc.Response

/-! A client of a target that answers one request after another on a stream of bytes.

What the system and the target do during a call is an `Episode`; given that, a call is a function.
A call that does not end with the response to its request leaves the connection stale: bytes of
that response may still arrive. A stale connection is replaced before the next request is sent.
-/

set_option autoImplicit false

namespace AccelControl

def readSize : Nat := 4096

structure Client where
  addr : String
  timeout : Duration
  /-- The id of the next request. -/
  nextId : UInt64
  /-- The bytes read from the connection that belong to no response yet. -/
  buffer : Bytes
  /-- Whether the last request may still be unanswered. -/
  stale : Bool
  deriving DecidableEq, Repr

inductive Arrival where
  /-- At least one byte. -/
  | bytes (first : UInt8) (more : Bytes)
  /-- Nothing: the other side has closed the connection. -/
  | closed
  | failed (error : IoError)
  deriving DecidableEq, Repr

def arrivedBytes (arrivals : List Arrival) : Bytes :=
  arrivals.flatMap fun
    | .bytes first more => first :: more
    | .closed | .failed _ => []

inductive Interruption where
  | deadline
  /-- The caller has given up. -/
  | cancelled
  deriving DecidableEq, Repr

inductive Opening where
  | opened
  | failed (error : IoError)
  | cancelled
  deriving DecidableEq, Repr

inductive Sending where
  | complete
  /-- It failed after so many bytes. -/
  | failed (count : Nat) (error : IoError)
  /-- It was interrupted after so many bytes. -/
  | interrupted (count : Nat) (reason : Interruption)
  deriving DecidableEq, Repr

/-- What happens on a connection while a request is sent and its response awaited, in this order, as
far as the client asks. -/
structure Exchange where
  sending : Sending
  /-- What successive reads bring. -/
  arrivals : List Arrival
  /-- What ends the wait for more than that. -/
  interruption : Interruption
  deriving DecidableEq, Repr

/-- What happens around a client during one call. -/
structure Episode extends Exchange where
  /-- How a connection opens, if the old one is stale. -/
  opening : Opening
  deriving DecidableEq, Repr

inductive Outcome where
  | ok (result : Json)
  | error (e : RpcError)
  | cancelled

def Outcome.isAnswer : Outcome → Bool
  | .ok _ | .error (.remote ..) | .error .missingResult => true
  | _ => false

/-- Something that a client does in the course of a call. Bytes are written to the connection opened
last, and read from it. -/
inductive Act where
  | report (event : LogEvent)
  /-- Ask for a new connection in place of the old one. -/
  | opening (result : Opening)
  | writing (bytes : Bytes)
  | reading (arrival : Arrival)
  deriving DecidableEq, Repr

structure CallReport where
  request : Request
  outcome : Outcome
  /-- The client after the call. -/
  client : Client
  /-- What the client did, in order. -/
  acts : List Act
  /-- The arrivals that the call did not wait for. -/
  unread : List Arrival

namespace CallReport

def logs (r : CallReport) : List LogEvent :=
  r.acts.filterMap fun
    | .report event => some event
    | _ => none

def written (r : CallReport) : Bytes :=
  r.acts.flatMap fun
    | .writing bytes => bytes
    | _ => []

end CallReport

namespace Client

/-- The client of a connection that has just been opened. -/
def fresh (addr : String) (timeout : Duration) : Client :=
  { addr, timeout, nextId := 1, buffer := [], stale := false }

def debugText (c : Client) : String :=
  "JsonRpcClient \x7b addr: " ++ Text.quoted c.addr ++ ", timeout: " ++ c.timeout.text
    ++ ", .. \x7d"

inductive Received where
  | value (v : Json)
  | failed (e : RpcError)
  | interrupted

structure Wait where
  received : Received
  /-- The bytes left on the buffer. -/
  buffer : Bytes
  /-- The arrivals that were read. -/
  read : List Arrival
  /-- The arrivals that were not waited for. -/
  unread : List Arrival

/-- Wait for a value: take one off the buffer, else read, and so on. -/
def receive (buffer : Bytes) (arrivals : List Arrival) : Wait :=
  match Json.take buffer with
  | .value v rest => ⟨.value v, rest, [], arrivals⟩
  | .malformed =>
    ⟨.failed (.deserialize (Utf8.stringLenient buffer) .malformed), buffer, [], arrivals⟩
  | .incomplete =>
    match arrivals with
    | [] => ⟨.interrupted, buffer, [], []⟩
    | .bytes first more :: arrivals =>
      let wait := receive (buffer ++ first :: more) arrivals
      { wait with read := .bytes first more :: wait.read }
    | .closed :: arrivals => ⟨.failed .connectionClosed, buffer, [.closed], arrivals⟩
    | .failed e :: arrivals => ⟨.failed (.io e), buffer, [.failed e], arrivals⟩

def interrupted (c : Client) (method : String) : Interruption → Outcome
  | .deadline => .error (.timeout method c.timeout)
  | .cancelled => .cancelled

/-- What a received value means for a request: the outcome of the call, and whether it leaves the
connection stale. -/
def conclude (id : UInt64) (raw : Json) : Outcome × Bool :=
  match Response.ofJson raw with
  | .error m => (.error (.deserialize raw.render (.unfit m.message)), true)
  | .ok response =>
    if response.answers id then
      match response.outcome with
      | .ok v => (.ok v, false)
      | .error e => (.error e, false)
    else (.error (.idMismatch id response.id.render), true)

def exchange (c : Client) (request : Request) (acts : List Act) (x : Exchange) : CallReport :=
  let waiting := { c with stale := true }
  match x.sending with
  | .failed count error =>
    { request, outcome := .error (.io error), client := waiting
      acts := acts ++ [.writing (request.bytes.take count)], unread := x.arrivals }
  | .interrupted count reason =>
    { request, outcome := c.interrupted request.method reason, client := waiting
      acts := acts ++ [.writing (request.bytes.take count)], unread := x.arrivals }
  | .complete =>
    let wait := receive c.buffer x.arrivals
    let waiting := { waiting with buffer := wait.buffer }
    let acts := acts ++ .writing request.bytes :: wait.read.map .reading
    match wait.received with
    | .failed error =>
      { request, outcome := .error error, client := waiting, acts, unread := wait.unread }
    | .interrupted =>
      { request, outcome := c.interrupted request.method x.interruption, client := waiting, acts
        unread := wait.unread }
    | .value raw =>
      let (outcome, stale) := conclude request.id raw
      { request, outcome, client := { waiting with stale }
        acts := acts ++ [.report (.response request.method request.id raw.render)]
        unread := wait.unread }

/-- The client with a new connection, of which nothing has been read. -/
def reopened (c : Client) : Client := { c with buffer := [], stale := false }

def call (c : Client) (method : String) (params : ParamMap) (e : Episode) : CallReport :=
  let request : Request := ⟨method, c.nextId, params⟩
  let c := { c with nextId := c.nextId + 1 }
  let acts : List Act := [.report (.request method request.id request.text)]
  if c.stale then
    let acts := acts ++ [.report (.reconnecting c.addr), .opening e.opening]
    match e.opening with
    | .failed error =>
      { request, outcome := .error (.connect c.addr error), client := c, acts, unread := e.arrivals }
    | .cancelled => { request, outcome := .cancelled, client := c, acts, unread := e.arrivals }
    | .opened => exchange c.reopened request acts e.toExchange
  else exchange c request acts e.toExchange

end Client

end AccelControl
