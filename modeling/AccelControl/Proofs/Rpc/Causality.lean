import AccelControl.Proofs.Rpc.Answer

/-! Which responses the target has sent before it knew the request.

The bytes on a connection at the time when the target has received a request are those that earlier
calls have left on the buffer and those that are under way. If they hold a whole value, the call takes
that value for the response. Else at least the last byte of the response is sent later.
-/

set_option autoImplicit false

namespace AccelControl.Client

/-- What the target has sent, of all that the next call comes upon, when it has received the request.
Of the bytes that arrive in the call, `early` many are on their way then. -/
def sentBefore (c : Client) (e : Episode) (early : Nat) : Bytes :=
  c.held ++ (arrivedBytes e.arrivals).take early

-- What the target has sent before, and what the call takes for its response, both stand in front of
-- all that there is to read.
theorem sentBefore_total {c : Client} {e : Episode} {r : CallReport} {response : Bytes} {v : Json}
    (split : r.read ++ r.unread = e.arrivals) (ends : c.EndsWith r response v) (early : Nat) :
    c.sentBefore e early <+: c.held ++ arrivedBytes e.arrivals ∧
      response <+: c.held ++ arrivedBytes e.arrivals := by
  constructor
  · exact (List.prefix_append_right_inj _).2 (List.take_prefix _ _)
  · rw [← split, arrivedBytes_append, ← List.append_assoc, ends.split, List.append_assoc]
    exact List.prefix_append _ _

section response

variable {c : Client} {e : Episode} {r : CallReport} {response : Bytes} {v : Json}
variable (split : r.read ++ r.unread = e.arrivals) (ends : c.EndsWith r response v) (early : Nat)

include split ends

-- A response that does not reach beyond what was sent before is the first value in it.
theorem take_sentBefore (within : response.length ≤ (c.sentBefore e early).length) :
    ∃ more, Json.take (c.sentBefore e early) = .value v more := by
  obtain ⟨before, behind⟩ := sentBefore_total split ends early
  obtain ⟨more, same⟩ := List.prefix_of_prefix_length_le behind before within
  rw [← same]
  exact ⟨more, Json.take_append (Json.marked_of_take ends.whole ends.parts) ends.whole more⟩

/-- A response reaches beyond what was sent before exactly if that holds no whole value. -/
theorem length_lt_response_iff : (c.sentBefore e early).length < response.length ↔
    ∀ w rest, Json.take (c.sentBefore e early) ≠ .value w rest := by
  constructor
  · intro later
    obtain ⟨before, behind⟩ := sentBefore_total split ends early
    obtain ⟨more, rfl⟩ := List.prefix_of_prefix_length_le before behind (Nat.le_of_lt later)
    apply Json.not_take_of_cut (Json.marked_of_take ends.whole ends.parts) ends.whole
    intro none
    rw [none, List.append_nil] at later
    exact Nat.lt_irrefl _ later
  · intro nothing
    apply Nat.lt_of_not_le
    intro within
    obtain ⟨more, taken⟩ := take_sentBefore split ends early within
    exact nothing v more taken

theorem eq_of_take_sentBefore {w : Json} {rest : Bytes}
    (taken : Json.take (c.sentBefore e early) = .value w rest) : w = v := by
  have within : response.length ≤ (c.sentBefore e early).length := by
    apply Nat.le_of_not_lt
    intro later
    exact (length_lt_response_iff split ends early).1 later w rest taken
  obtain ⟨more, taken'⟩ := take_sentBefore split ends early within
  rw [taken] at taken'
  injection taken'

end response

/-- In every run, if a call ends with an answer, at least one byte of its response is sent after the
target has received the request, exactly if the bytes sent before hold no whole value. If they hold
one, it is the response. -/
theorem answer_sent_after_iff (addr : String) (timeout : Duration) (past : List Turn) (turn : Turn)
    (early : Nat) :
    let c := (fresh addr timeout).after past
    let r := c.call turn.method turn.params turn.episode
    r.outcome.isAnswer = true → ∃ response v, c.EndsWith r response v ∧
      ((c.sentBefore turn.episode early).length < response.length ↔
        ∀ w rest, Json.take (c.sentBefore turn.episode early) ≠ .value w rest) ∧
      ∀ w rest, Json.take (c.sentBefore turn.episode early) = .value w rest → w = v := by
  intro c r answered
  obtain ⟨split, response, v, ends⟩ := endsWith_of_answered answered
  refine ⟨response, v, ends, length_lt_response_iff split ends early, fun w rest taken => ?_⟩
  exact eq_of_take_sentBefore split ends early taken

def responseOf (id : UInt64) (result : Json) : Json :=
  .object [("jsonrpc", .string "2.0"), ("id", .ofUInt64 id), ("result", result)]

def failureReport : Json :=
  .object [("jsonrpc", .string "2.0"), ("id", .null),
    ("error", .object [("code", .number (.integer ⟨-32700, by decide, by decide⟩)),
      ("message", .string "Parse error")])]

def turnOf (method : String) (more : Bytes) : Turn where
  method := method
  params := .empty
  episode := ⟨⟨.complete, [.bytes 0x7B more], .deadline⟩, .opened⟩

/-- The first response, and a report of a failure behind it. -/
def answeredTwice : Turn :=
  turnOf "first" ((responseOf 1 (.bool true)).bytes.tail ++ failureReport.bytes)

def answeredOnce : Turn := turnOf "second" (responseOf 2 (.string "second")).bytes.tail

/-- The call behind one that is answered twice ends with an answer. -/
theorem answer_sent_after_iff_answeredTwice :
    let c := (fresh "./rpc.sock" .minute).after [answeredTwice]
    let r := c.call answeredOnce.method answeredOnce.params answeredOnce.episode
    r.outcome.isAnswer = true ∧ ∃ response v, c.EndsWith r response v ∧
      ((c.sentBefore answeredOnce.episode 0).length < response.length ↔
        ∀ w rest, Json.take (c.sentBefore answeredOnce.episode 0) ≠ .value w rest) ∧
      ∀ w rest, Json.take (c.sentBefore answeredOnce.episode 0) = .value w rest → w = v := by
  have answered : (((fresh "./rpc.sock" .minute).after [answeredTwice]).call answeredOnce.method
      answeredOnce.params answeredOnce.episode).outcome.isAnswer = true := by decide +kernel
  exact ⟨answered, answer_sent_after_iff "./rpc.sock" .minute [answeredTwice] answeredOnce 0 answered⟩

/-- Not every answer is sent after its request: the failure reported behind the first response becomes
the answer to the second request, and the second response is not read. -/
theorem not_every_answer_sent_after :
    ¬∀ (addr : String) (timeout : Duration) (past : List Turn) (turn : Turn) (early : Nat),
      let c := (fresh addr timeout).after past
      let r := c.call turn.method turn.params turn.episode
      r.outcome.isAnswer = true → ∃ response v, c.EndsWith r response v ∧
        (c.sentBefore turn.episode early).length < response.length := by
  intro always
  have answered : (((fresh "./rpc.sock" .minute).after [answeredTwice]).call answeredOnce.method
      answeredOnce.params answeredOnce.episode).outcome.isAnswer = true := by decide +kernel
  have before : ((fresh "./rpc.sock" .minute).after [answeredTwice]).sentBefore answeredOnce.episode 0
      = failureReport.bytes := by decide +kernel
  obtain ⟨response, v, ends, later⟩ :=
    always "./rpc.sock" .minute [answeredTwice] answeredOnce 0 answered
  have nothing := (length_lt_response_iff (endsWith_of_answered answered).1 ends 0).1 later
  -- The report is on the buffer when the second request is sent, and it is a whole value.
  have whole : Json.take failureReport.bytes = .value failureReport.normalize [] := by
    have plain : failureReport.FloatFree := ⟨trivial, trivial, ⟨trivial, trivial, trivial⟩, trivial⟩
    have framed := Json.framed_bytes plain trivial (by decide)
    simpa using framed.whole []
  rw [before] at nothing
  exact nothing _ _ whole

end AccelControl.Client
