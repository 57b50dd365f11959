import AccelControl.Proofs.Rpc.Answer
import AccelControl.Proofs.Schema.Scalar

/-! What a value comes to as the response to a request.

A value is told apart first by whether it has the fields of a response and, in the place of the error,
nothing, null or an error that can be told. Then its id counts, then the error, and then the result.
-/

set_option autoImplicit false

namespace AccelControl

/-- The errors that values tell: a code and a message by their names, or in this order. A message
that is missing is empty. -/
inductive RemoteError.Told : Json → RemoteError → Prop where
  | named {members : Members Json} {i : Json.Integer} {e : RemoteError}
      (code : members.get? "code" = some (.number (.integer i))) (same : i.value = e.code.toInt)
      (message : members.get? "message" = none ∧ e.message = ""
        ∨ members.get? "message" = some (.string e.message)) : Told (.object members) e
  | placed {rest : List Json} {i : Json.Integer} {e : RemoteError} (same : i.value = e.code.toInt)
      (message : rest = [] ∧ e.message = "" ∨ rest = [.string e.message]) :
      Told (.array (.number (.integer i) :: rest)) e

namespace Response

/-- The values with the fields of a response, of which any may be missing: an id, a result and an
error by their names, or in this order. -/
inductive HasFields : Json → Option Json → Option Json → Option Json → Prop where
  | named (members : Members Json) : HasFields (.object members) (members.get? "id")
      (members.get? "result") (members.get? "error")
  | placed (items : List Json) (few : items.length ≤ 3) :
      HasFields (.array items) items[0]? items[1]? items[2]?

/-- What stands in the place of an error, and the error that it tells. -/
inductive Failure : Option Json → Option RemoteError → Prop where
  | missing : Failure none none
  | null : Failure (some .null) none
  | told {v : Json} {e : RemoteError} (told : RemoteError.Told v e) : Failure (some v) (some e)

end Response

theorem atMost_iff {α : Type} {fields : Nat} {items : List Json} {a b : α} :
    atMost fields items a = .ok b ↔ items.length ≤ fields ∧ a = b := by
  unfold atMost
  split
  · next more => exact ⟨nofun, fun few => absurd few.1 (Nat.not_le.2 more)⟩
  · next few => simp [Nat.not_lt.1 few]

theorem message_iff {member : Option Json} {message : String} :
    Schema.string.orElse "" member = .ok message
      ↔ member = none ∧ message = "" ∨ member = some (.string message) := by
  simp [Schema.orElse_iff, Schema.string_ofJson_iff]

theorem code_iff {member : Option Json} {code : Int64} :
    (Schema.int64.map some).orElse none member = .ok (some code)
      ↔ ∃ i, member = some (.number (.integer i)) ∧ i.value = code.toInt := by
  simp [Schema.orElse_iff, Schema.map_ofJson_iff, Schema.int64_ofJson_iff]

-- The message of an error in an array, with nothing behind it.
theorem lastMessage_iff {rest : List Json} {message : String} :
    Schema.string.orElse "" rest.head? = .ok message ∧ (Json.null :: rest).length ≤ 2
      ↔ rest = [] ∧ message = "" ∨ rest = [.string message] := by
  rw [message_iff]
  cases rest with
  | nil => simp
  | cons second more =>
    cases more with
    | nil => simp
    | cons third more => simp

theorem RemoteError.ofJson_iff {v : Json} {e : RemoteError} : ofJson v = .ok e ↔ Told v e := by
  cases v with
  | object members =>
    simp only [ofJson, bind_ok_iff]
    constructor
    · rintro ⟨code?, code, message, text, last⟩
      cases code? with
      | none => cases last
      | some number =>
        cases last
        obtain ⟨i, found, same⟩ := code_iff.1 code
        exact .named found same (message_iff.1 text)
    · rintro ⟨found, same, text⟩
      exact ⟨some e.code, code_iff.2 ⟨_, found, same⟩, e.message, message_iff.2 text, rfl⟩
  | array items =>
    cases items with
    | nil => exact ⟨nofun, nofun⟩
    | cons first rest =>
      simp only [ofJson, bind_ok_iff, atMost_iff]
      constructor
      · rintro ⟨code, number, message, text, few, rfl⟩
        obtain ⟨i, rfl, same⟩ := Schema.int64_ofJson_iff.1 number
        exact .placed same (lastMessage_iff.1 ⟨text, few⟩)
      · rintro ⟨⟩
        next i same message =>
        obtain ⟨text, few⟩ := lastMessage_iff.2 message
        exact ⟨e.code, Schema.int64_ofJson_iff.2 ⟨i, rfl, same⟩, e.message, text, few, rfl⟩
  | null => exact ⟨nofun, nofun⟩
  | bool b => exact ⟨nofun, nofun⟩
  | number n => exact ⟨nofun, nofun⟩
  | string s => exact ⟨nofun, nofun⟩

namespace Response

theorem HasFields.unique {raw : Json} {id result error id' result' error' : Option Json}
    (fields : HasFields raw id result error) (fields' : HasFields raw id' result' error') :
    id = id' ∧ result = result' ∧ error = error' := by
  cases fields <;> cases fields' <;> exact ⟨rfl, rfl, rfl⟩

def ofParts (id result : Option Json) (failure : Option RemoteError) : Response :=
  ⟨id.getD .null, result, failure⟩

-- A null tells no error, so the two cases of a member that is there do not overlap.
theorem ofFields_some {id result : Option Json} {v : Json} (present : v ≠ .null) :
    ofFields id result (some v)
      = (RemoteError.ofJson v).map fun e => ofParts id result (some e) := by
  cases v with
  | null => exact absurd rfl present
  | _ => rfl

theorem ofFields_iff {id result error : Option Json} {r : Response} :
    ofFields id result error = .ok r
      ↔ ∃ failure, Failure error failure ∧ r = ofParts id result failure := by
  cases error with
  | none =>
    constructor
    · rintro ⟨⟩
      exact ⟨none, .missing, rfl⟩
    · rintro ⟨failure, ⟨⟩, rfl⟩
      rfl
  | some v =>
    by_cases null : v = .null
    · subst null
      constructor
      · rintro ⟨⟩
        exact ⟨none, .null, rfl⟩
      · rintro ⟨failure, _ | _ | ⟨⟨⟩⟩, rfl⟩
        rfl
    · rw [ofFields_some null, map_ok_iff]
      constructor
      · rintro ⟨e, read, rfl⟩
        exact ⟨some e, .told (RemoteError.ofJson_iff.1 read), rfl⟩
      · rintro ⟨failure, _ | _ | told, rfl⟩
        · exact absurd rfl null
        · exact ⟨_, RemoteError.ofJson_iff.2 told, rfl⟩

/-- A value is read as a response exactly if it has the fields of one and its error can be told. -/
theorem ofJson_iff {raw : Json} {r : Response} :
    ofJson raw = .ok r ↔ ∃ id result error failure,
      HasFields raw id result error ∧ Failure error failure ∧ r = ofParts id result failure := by
  constructor
  · intro read
    cases raw with
    | object members =>
      obtain ⟨failure, told, same⟩ := ofFields_iff.1 read
      exact ⟨_, _, _, failure, .named members, told, same⟩
    | array items =>
      have stages : ofFields items[0]? items[1]? items[2]? >>= atMost 3 items = .ok r := read
      obtain ⟨r', parts, last⟩ := bind_ok_iff.1 stages
      obtain ⟨few, rfl⟩ := atMost_iff.1 last
      obtain ⟨failure, told, same⟩ := ofFields_iff.1 parts
      exact ⟨_, _, _, failure, .placed items few, told, same⟩
    | null => exact nomatch read
    | bool b => exact nomatch read
    | number n => exact nomatch read
    | string s => exact nomatch read
  · rintro ⟨id, result, error, failure, fields, told, same⟩
    have read := ofFields_iff.2 ⟨failure, told, same⟩
    cases fields with
    | named members => exact read
    | placed items few => exact bind_ok_iff.2 ⟨r, read, atMost_iff.2 ⟨few, rfl⟩⟩

/-- A response pairs with the request of an id if it has the same one. One without an id, or with null
in its place, pairs with any request if it tells an error. -/
def Pairs (request : UInt64) (id : Option Json) (failure : Option RemoteError) : Prop :=
  id = some (.ofUInt64 request) ∨ (id = none ∨ id = some .null) ∧ failure ≠ none

end Response

theorem Json.nat?_eq_iff {v : Json} {n : UInt64} : v.nat? = some n.toNat ↔ v = .ofUInt64 n := by
  cases v with
  | number number =>
    cases number with
    | integer i =>
      obtain ⟨value, lower, upper⟩ := i
      simp only [nat?, ofUInt64, Integer.ofUInt64, Option.ite_none_right_eq_some, Option.some.injEq,
        number.injEq, Number.integer.injEq, Integer.mk.injEq]
      omega
    | float x => simp [nat?, ofUInt64]
  | _ => simp [nat?, ofUInt64]

namespace Response

theorem answers_iff {request : UInt64} {id result : Option Json} {failure : Option RemoteError} :
    (ofParts id result failure).answers request = true ↔ Pairs request id failure := by
  simp only [answers, ofParts, Pairs, Bool.or_eq_true, Bool.and_eq_true, beq_iff_eq,
    Json.nat?_eq_iff, Option.isSome_iff_ne_none]
  cases id with
  | none => simp [Json.isNull, Json.ofUInt64]
  | some v => cases v <;> simp [Json.isNull, Json.ofUInt64]

end Response

namespace Client

open Response

section conclude

variable (request : UInt64) {raw : Json} {id result error : Option Json}
variable {failure : Option RemoteError}

theorem conclude_of_parts (fields : HasFields raw id result error) (told : Failure error failure) :
    conclude request raw =
      if (ofParts id result failure).answers request then
        match failure, result with
        | some e, _ => (.error (.remote e.code e.message), false)
        | none, some v => (.ok v, false)
        | none, none => (.error .missingResult, false)
      else (.error (.idMismatch request (id.getD .null).render), true) := by
  have read := Response.ofJson_iff.2 ⟨id, result, error, failure, fields, told, rfl⟩
  simp only [conclude, read]
  split
  · cases failure with
    | some e => rfl
    | none => cases result <;> rfl
  · rfl

/-- The value is no response to any request: it has other fields, or its error cannot be told. -/
def Unfit (raw : Json) : Prop :=
  (∀ id result error, ¬HasFields raw id result error) ∨
    ∃ id result v, HasFields raw id result (some v) ∧ v ≠ .null ∧ ∀ e, ¬RemoteError.Told v e

theorem unfit_of_error {m : Mismatch} (read : Response.ofJson raw = .error m) : Unfit raw := by
  by_cases has : ∃ id result error, HasFields raw id result error
  · obtain ⟨id, result, error, fields⟩ := has
    have untold (failure : Option RemoteError) : ¬Failure error failure := fun told =>
      nomatch read.symm.trans (Response.ofJson_iff.2 ⟨_, _, _, _, fields, told, rfl⟩)
    cases error with
    | none => exact absurd .missing (untold none)
    | some v =>
      exact .inr ⟨id, result, v, fields, fun null => untold none (null ▸ .null),
        fun e told => untold (some e) (.told told)⟩
  · exact .inl fun id result error fields => has ⟨id, result, error, fields⟩

theorem not_unfit_of_parts (fields : HasFields raw id result error) (told : Failure error failure) :
    ¬Unfit raw := by
  rintro (none | ⟨id', result', v, fields', present, untold⟩)
  · exact none id result error fields
  · obtain ⟨-, -, rfl⟩ := fields.unique fields'
    cases told with
    | null => exact present rfl
    | told told => exact untold _ told

theorem conclude_deserialize_iff (body : String) :
    (∃ cause, (conclude request raw).1 = .error (.deserialize body cause))
      ↔ body = raw.render ∧ Unfit raw := by
  cases read : Response.ofJson raw with
  | error m =>
    have outcome : (conclude request raw).1 = .error (.deserialize raw.render (.unfit m.message)) := by
      simp only [conclude, read]
    simp [outcome, unfit_of_error read, eq_comm]
  | ok response =>
    obtain ⟨id, result, error, failure, fields, told, -⟩ := Response.ofJson_iff.1 read
    refine iff_of_false ?_ fun unfit => not_unfit_of_parts fields told unfit.2
    rintro ⟨cause, outcome⟩
    rw [conclude_of_parts request fields told] at outcome
    split at outcome
    · split at outcome <;> cases outcome
    · cases outcome

end conclude

/-- The request of a call is written, and the first value on the connection is received. -/
structure Receives (c : Client) (e : Episode) (raw : Json) : Prop where
  opens : c.stale = true → e.opening = .opened
  complete : e.sending = .complete
  received : (receive c.held e.arrivals).received = .value raw

section call

variable {c : Client} {e : Episode} {raw : Json}

theorem call_of_receives (receives : c.Receives e raw) (method : String) (params : ParamMap) :
    let r := c.call method params e
    let wait := receive c.held e.arrivals
    r.outcome = (conclude c.nextId raw).1 ∧ r.written = (c.asking method params).bytes ∧
      r.client = { c.numbered with
        buffer := wait.buffer, stale := (conclude c.nextId raw).2 } ∧
      r.unread = wait.unread := by
  have received : (receive c.prepared.buffer e.arrivals).received = .value raw :=
    receives.received
  have writings := call_writings c method params e receives.opens
  rw [call_of_opens method params e receives.opens] at writings ⊢
  refine ⟨?_, ?_, ?_, ?_⟩
  · rw [exchange_of_value receives.complete received]
    rfl
  · rw [CallReport.written_eq, writings, receives.complete]
    exact List.flatten_singleton
  · rw [exchange_of_value receives.complete received]
    rfl
  · rw [exchange_of_value receives.complete received]
    rfl

/-- What a call comes to that receives a value. It fails to read a response exactly if the value has
not the fields of one, or an error among them that cannot be told. Of a response the id counts first,
then an error, and then a result. The connection is in step exactly if the ids pair. -/
theorem call_classified (receives : c.Receives e raw) (method : String) (params : ParamMap) :
    let r := c.call method params e
    (∀ body, (∃ cause, r.outcome = .error (.deserialize body cause))
        ↔ body = raw.render ∧ Unfit raw) ∧
      ∀ id result error failure, HasFields raw id result error → Failure error failure →
        (r.outcome = .error (.idMismatch c.nextId (id.getD .null).render) ↔
            ¬Pairs c.nextId id failure) ∧
          (∀ code message, r.outcome = .error (.remote code message) ↔
            Pairs c.nextId id failure ∧ failure = some ⟨code, message⟩) ∧
          (∀ v, r.outcome = .ok v ↔
            Pairs c.nextId id failure ∧ failure = none ∧ result = some v) ∧
          (r.outcome = .error .missingResult ↔
            Pairs c.nextId id failure ∧ failure = none ∧ result = none) ∧
          (r.client.stale = false ↔ Pairs c.nextId id failure) := by
  obtain ⟨outcome, -, client, -⟩ := call_of_receives receives method params
  simp only [outcome, client]
  refine ⟨conclude_deserialize_iff c.nextId, fun id result error failure fields told => ?_⟩
  rw [conclude_of_parts c.nextId fields told]
  by_cases pairs : Pairs c.nextId id failure
  · rw [if_pos (answers_iff.2 pairs)]
    cases failure with
    | some remote =>
      obtain ⟨code, message⟩ := remote
      simp [pairs]
    | none =>
      cases result with
      | some v => simp [pairs]
      | none => simp [pairs]
  · rw [if_neg (mt answers_iff.1 pairs)]
    simp [pairs]

end call

/-- An error without a message in answer to no request, and a result beside it. -/
def bareFailure : Json :=
  .object [("error", .array [.number (.integer ⟨-32600, by decide, by decide⟩)]), ("id", .null),
    ("result", .bool true)]

def bareFailureEpisode : Episode :=
  ⟨⟨.complete, bareFailure.bytes.map (.bytes · []), .deadline⟩, .opened⟩

theorem call_classified_bareFailure :
    (fresh "./rpc.sock" .minute).Receives bareFailureEpisode bareFailure ∧
      ((fresh "./rpc.sock" .minute).call "reset" .empty bareFailureEpisode).outcome
        = .error (.remote (-32600) "") := by
  have plain : bareFailure.FloatFree := ⟨⟨trivial, trivial⟩, trivial, trivial, trivial⟩
  have framed := Json.framed_bytes plain trivial (Nat.le_of_ble_eq_true rfl)
  have split : [] ++ (bareFailure.bytes.map fun b => (b, ([] : Bytes))).flatMap
      (fun piece => piece.1 :: piece.2) = bareFailure.bytes ++ [] := by simp [List.flatMap_map]
  have received := (receive_framed framed _ [] split).1
  rw [List.map_map] at received
  have receives : (fresh "./rpc.sock" .minute).Receives bareFailureEpisode bareFailure :=
    ⟨nofun, rfl, received⟩
  have told : Failure (some (.array [.number (.integer ⟨-32600, by decide, by decide⟩)]))
      (some ⟨-32600, ""⟩) := .told (.placed rfl (.inl ⟨rfl, rfl⟩))
  have remote := ((call_classified receives "reset" .empty).2 _ _ _ _ (.named _) told).2.1
  exact ⟨receives, (remote (-32600) "").2 ⟨.inr ⟨.inr rfl, nofun⟩, rfl⟩⟩

end Client

end AccelControl
