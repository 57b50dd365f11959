import AccelControl.Json.Shape
import AccelControl.Rpc.Run

/-! A target that answers each request that it reads with one response.

It finds the id of a response in the request. Everything else is up to the target: the other members,
the white space around the response, and the pieces in which its bytes arrive.
-/

set_option autoImplicit false

namespace AccelControl

def Request.ofJson? : Json → Option Request
  | .object members =>
    let members : Members Json := members
    match members.get? "jsonrpc", members.get? "method", (members.get? "id").bind Json.nat? with
    | some (.string "2.0"), some (.string method), some id =>
      match members.get? "params" with
      | none => some ⟨method, .ofNat id, .empty⟩
      | some (.object params) => some ⟨method, .ofNat id, .ofMembers params⟩
      | some _ => none
    | _, _, _ => none
  | _ => none

namespace Responder

inductive Verdict where
  | result (v : Json)
  | failure (code : Int64) (message : String)

def Verdict.outcome : Verdict → Outcome
  | .result v => .ok v.normalize
  | .failure code message => .error (.remote code message)

structure Reply where
  /-- The members in front of the id, and those behind it. -/
  front : List (String × Json)
  back : List (String × Json)
  /-- White space in front of the response, and behind it. -/
  before : Bytes
  after : Bytes
  /-- The pieces in which bytes arrive, each of them a first byte and others. -/
  cut : Bytes → List (UInt8 × Bytes)
  blank_before : ∀ b ∈ before, Json.isSpace b = true
  blank_after : ∀ b ∈ after, Json.isSpace b = true
  distinct : ((front ++ ("id", .null) :: back).map (·.1)).Nodup
  whole : ∀ s, (cut s).flatMap (fun piece => piece.1 :: piece.2) = s

namespace Reply

def members (reply : Reply) (id : UInt64) : List (String × Json) :=
  reply.front ++ ("id", .ofUInt64 id) :: reply.back

def toJson (reply : Reply) (id : UInt64) : Json := .object (reply.members id)

def bytes (reply : Reply) (id : UInt64) : Bytes :=
  reply.before ++ (reply.toJson id).bytes ++ reply.after

def arrivals (reply : Reply) (s : Bytes) : List Arrival :=
  (reply.cut s).map fun piece => .bytes piece.1 piece.2

/-- The response tells this. A null in the place of an error tells none. -/
def Tells (reply : Reply) : Verdict → Prop
  | .result v => ("result", v) ∈ reply.front ++ reply.back ∧
      ∀ member ∈ reply.front ++ reply.back, member.1 = "error" → member.2 = .null
  | .failure code message => ∃ fields : List (String × Json), ∃ i : Json.Integer,
      ("error", .object fields) ∈ reply.front ++ reply.back ∧ (fields.map (·.1)).Nodup ∧
        ("code", .number (.integer i)) ∈ fields ∧ i.value = code.toInt ∧
        ("message", .string message) ∈ fields

end Reply

structure Line where
  /-- The bytes of a request that the target has not read to its end. -/
  inbox : Bytes
  /-- The requests that the target has read. -/
  requests : List Request
  /-- How the target will answer. -/
  replies : List Reply
  /-- The bytes that the target has written and the client has not read. -/
  underWay : Bytes

namespace Line

def opened (replies : List Reply) : Line := ⟨[], [], replies, []⟩

/-- The request that the target reads when these bytes have reached it, and the bytes behind it. -/
def read (line : Line) (written : Bytes) : Option (Request × Bytes) :=
  match Json.take (line.inbox ++ written) with
  | .value v rest => (Request.ofJson? v).map (·, rest)
  | .incomplete | .malformed => none

/-- What happens when these bytes are written: the response arrives in time, if there is one. -/
def exchange (line : Line) (written : Bytes) : Exchange :=
  match line.read written, line.replies with
  | some (request, _), reply :: _ =>
    ⟨.complete, reply.arrivals (line.underWay ++ reply.bytes request.id), .deadline⟩
  | _, _ => ⟨.complete, [], .deadline⟩

def settle (line : Line) (report : CallReport) : Line :=
  match line.read report.written, line.replies with
  | some (request, rest), _ :: replies =>
    ⟨rest, line.requests ++ [request], replies, arrivedBytes report.unread⟩
  | _, _ => { line with inbox := line.inbox ++ report.written }

end Line

/-- A call, the response to it and what that tells. Both fit into the depth to which values may nest,
and neither has a floating-point number inside. -/
structure Round where
  ask : Ask
  reply : Reply
  verdict : Verdict
  plain_params : ask.params.toJson.FloatFree
  shallow_request : ∀ id, (Request.toJson ⟨ask.method, id, ask.params⟩).depth ≤ Json.greatestDepth
  plain_reply : ∀ id, (reply.toJson id).FloatFree
  shallow_reply : ∀ id, (reply.toJson id).depth ≤ Json.greatestDepth
  tells : reply.Tells verdict

end Responder

/-- A target that answers, behind a listener of any conduct. -/
def responder {σ : Type} (accept : σ → Attempt Responder.Line × σ) : Peer σ Responder.Line where
  accept := accept
  exchange := Responder.Line.exchange
  settle := Responder.Line.settle

end AccelControl
