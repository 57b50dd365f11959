import AccelControl.Proofs.Rpc.Run

/-! Calls that end with an answer.

The answer is that of the first value on the connection: of what earlier calls have left on the
buffer, and of what arrives behind it.
-/

set_option autoImplicit false

namespace AccelControl

def Act.read? : Act → Option Arrival
  | .reading arrival => some arrival
  | _ => none

def CallReport.read (r : CallReport) : List Arrival := r.acts.filterMap Act.read?

namespace Client

/-- A call ends with the answer of a response, which stands in front of all that there is to read. -/
structure EndsWith (c : Client) (r : CallReport) (response : Bytes) (v : Json) : Prop where
  split : c.held ++ arrivedBytes r.read = response ++ r.client.buffer
  whole : Json.take response = .value v []
  parts : v.HasParts
  outcome : r.outcome = (conclude r.request.id v).1

-- Only an array or an object answers a request.
theorem hasParts_of_conclude {id : UInt64} {v : Json}
    (answered : (conclude id v).1.isAnswer = true) : v.HasParts := by
  cases v with
  | array items => trivial
  | object members => trivial
  | null => exact nomatch answered
  | bool b => exact nomatch answered
  | number n => exact nomatch answered
  | string s => exact nomatch answered

-- A call that ends with an answer is an exchange behind what has been read before.
theorem exchange_of_answered {c : Client} {method : String} {params : ParamMap} {e : Episode}
    (answered : (c.call method params e).outcome.isAnswer = true) :
    c.call method params e = c.prepared.exchange (c.asking method params)
      (c.preface (c.asking method params)) e.toExchange := by
  rcases c.opens_or_unopened e with opens | ⟨stale, unopened⟩
  · exact call_of_opens method params e opens
  · rw [call_of_unopened method params e stale unopened, unopened_isAnswer] at answered
    exact nomatch answered

theorem filterMap_read?_reading (arrivals : List Arrival) :
    (arrivals.map Act.reading).filterMap Act.read? = arrivals := by
  rw [List.filterMap_map]
  exact List.filterMap_some

-- A call reads nothing but what it waits for.
theorem read_of_value {c : Client} {request : Request} {acts : List Act} {x : Exchange} {v : Json}
    (silent : acts.filterMap Act.read? = []) (complete : x.sending = .complete)
    (received : (receive c.buffer x.arrivals).received = .value v) :
    (c.exchange request acts x).read = (receive c.buffer x.arrivals).read := by
  rw [exchange_of_value complete received, CallReport.read, List.filterMap_append, silent,
    List.nil_append, List.filterMap_cons_none rfl, List.filterMap_append, filterMap_read?_reading,
    List.filterMap_cons_none rfl, List.filterMap_nil, List.append_nil]

/-- A call that ends with an answer ends with that of a response. What it does not read is left. -/
theorem endsWith_of_answered {c : Client} {method : String} {params : ParamMap} {e : Episode}
    (answered : (c.call method params e).outcome.isAnswer = true) :
    let r := c.call method params e
    r.read ++ r.unread = e.arrivals ∧ ∃ response v, c.EndsWith r response v := by
  have same := exchange_of_answered answered
  rw [same] at answered
  obtain ⟨complete, v, received⟩ := exchange_answered _ _ _ _ answered
  have read : (c.call method params e).read = (receive c.held e.arrivals).read := by
    rw [same]
    exact read_of_value (c.filterMap_preface (fun _ => rfl) (fun _ => rfl) _) complete received
  rw [exchange_of_value complete received] at same answered
  have parts := hasParts_of_conclude answered
  have taken := receive_value received
  -- The response is what lies between what was left by earlier calls and what is left by this one.
  obtain ⟨response, split, whole⟩ := Json.take_cut (Json.marked_of_take taken parts) taken
  dsimp only
  refine ⟨?_, response, v, ?_, whole, parts, ?_⟩
  · rw [read, same]
    exact receive_split _ _
  · rw [read, same]
    exact split
  · rw [same]

end Client

end AccelControl
