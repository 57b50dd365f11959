import AccelControl.Proofs.Rpc.Conduct

/-! Requests and responses are paired by their places on the connection.

The calls of a run are grouped by the connections that they write to. On each connection the calls that
end with an answer come first, and their responses are the first values in the stream of all bytes that
the target sends there, in the same order and without a gap.
-/

set_option autoImplicit false

namespace AccelControl

/-- The value at a place, counted from zero, in a stream of values that are read one after another. -/
def Json.nth? : Nat → Bytes → Option Json
  | 0, stream =>
    match take stream with
    | .value v _ => some v
    | .incomplete | .malformed => none
  | n + 1, stream =>
    match take stream with
    | .value _ rest => nth? n rest
    | .incomplete | .malformed => none

namespace CallReport

/-- The calls that write to the connection that is in use before them, and the calls that write to each
connection opened by one of them. -/
def perConnection : List CallReport → List CallReport × List (List CallReport)
  | [] => ([], [])
  | r :: reports =>
    let (current, later) := perConnection reports
    if r.opens then ([], (r :: current) :: later)
    else if r.writings.isEmpty then (current, later)
    else (r :: current, later)

def connections (reports : List CallReport) : List (List CallReport) :=
  (perConnection reports).1 :: (perConnection reports).2

section perConnection

variable {r : CallReport} (reports : List CallReport)

theorem perConnection_of_opens (opens : r.opens = true) : perConnection (r :: reports)
    = ([], (r :: (perConnection reports).1) :: (perConnection reports).2) := by
  simp [perConnection, opens]

theorem perConnection_of_writes {written : Bytes} (opens : r.opens = false)
    (writes : r.writings = [written]) : perConnection (r :: reports)
      = (r :: (perConnection reports).1, (perConnection reports).2) := by
  simp [perConnection, opens, writes]

theorem perConnection_of_unopened (opens : r.opens = false) (writes : r.writings = []) :
    perConnection (r :: reports) = perConnection reports := by
  simp [perConnection, opens, writes]

end perConnection

def received (calls : List CallReport) : Bytes := calls.flatMap fun r => arrivedBytes r.read

theorem received_cons (r : CallReport) (calls : List CallReport) :
    received (r :: calls) = arrivedBytes r.read ++ received calls := rfl

/-- The responses of a connection, as bytes and as values, where `buffer` is read already. -/
structure Paired (buffer : Bytes) (calls : List CallReport) (responses : List (Bytes × Json)) :
    Prop where
  /-- The calls that end with an answer are the first ones, as many as there are responses. -/
  answered : ∀ (j : Nat) (r : CallReport), calls[j]? = some r →
    (r.outcome.isAnswer = true ↔ j < responses.length)
  /-- Each of them comes to what its response means. All that has been read is taken for responses, up
  to what is left on the buffer. -/
  outcome : ∀ (j : Nat) (r : CallReport) (response : Bytes) (v : Json), calls[j]? = some r →
    responses[j]? = some (response, v) →
    Json.take response = .value v [] ∧ r.outcome = (Client.conclude r.request.id v).1 ∧
      buffer ++ received (calls.take (j + 1))
        = (responses.take (j + 1)).flatMap (·.1) ++ r.client.buffer
  /-- The responses are the first values of all that the target sends. -/
  places : ∀ sent, buffer ++ received calls <+: sent → ∀ j < responses.length,
    Json.nth? j sent = responses[j]?.map (·.2)

theorem Paired.none {buffer : Bytes} {calls : List CallReport}
    (unanswered : ∀ r ∈ calls, r.outcome.isAnswer = false) : Paired buffer calls [] where
  answered j r found := by
    rw [unanswered r (List.mem_of_getElem? found)]
    simp
  outcome j r response v _ none := nomatch none
  places sent _ j less := absurd less (Nat.not_lt_zero j)

theorem Paired.cons {buffer response : Bytes} {v : Json} {r : CallReport} {calls : List CallReport}
    {responses : List (Bytes × Json)} (answer : r.outcome.isAnswer = true)
    (split : buffer ++ arrivedBytes r.read = response ++ r.client.buffer)
    (whole : Json.take response = .value v []) (parts : v.HasParts)
    (outcome : r.outcome = (Client.conclude r.request.id v).1)
    (rest : Paired r.client.buffer calls responses) :
    Paired buffer (r :: calls) ((response, v) :: responses) where
  answered j r' found := by
    cases j with
    | zero =>
      cases found
      simp [answer]
    | succ j =>
      rw [rest.answered j r' found]
      simp
  outcome j r' response' v' found found' := by
    cases j with
    | zero =>
      cases found
      cases found'
      refine ⟨whole, outcome, ?_⟩
      simpa [received] using split
    | succ j =>
      obtain ⟨whole', outcome', read⟩ := rest.outcome j r' response' v' found found'
      refine ⟨whole', outcome', ?_⟩
      rw [List.take_succ_cons, List.take_succ_cons, received_cons, List.flatMap_cons,
        ← List.append_assoc, split, List.append_assoc, read, List.append_assoc]
  places sent reaches j less := by
    obtain ⟨more, rfl⟩ := reaches
    rw [received_cons, ← List.append_assoc, split, List.append_assoc, List.append_assoc]
    have taken := Json.take_append (Json.marked_of_take whole parts) whole
      (r.client.buffer ++ (received calls ++ more))
    cases j with
    | zero =>
      rw [Json.nth?, taken]
      rfl
    | succ j =>
      rw [Json.nth?, taken, List.nil_append]
      refine rest.places _ ⟨more, List.append_assoc _ _ _⟩ j ?_
      exact Nat.lt_of_succ_lt_succ less

end CallReport

namespace Client

open CallReport

variable (c : Client) (method : String) (params : ParamMap) (e : Episode)

-- A call goes on from what is held of its connection, and hands on what it leaves.
theorem paired_call {calls : List CallReport}
    (stale : (c.call method params e).client.stale = true → calls = [])
    (sync : (c.call method params e).client.stale = false →
      ∃ responses, Paired (c.call method params e).client.buffer calls responses) :
    ∃ responses, Paired c.held (c.call method params e :: calls) responses := by
  rw [call_stale] at stale sync
  cases answer : (c.call method params e).outcome.isAnswer with
  | true =>
    obtain ⟨-, response, v, ends⟩ := endsWith_of_answered answer
    rw [answer] at sync
    obtain ⟨responses, paired⟩ := sync rfl
    exact ⟨_, paired.cons answer ends.split ends.whole ends.parts ends.outcome⟩
  | false =>
    rw [answer] at stale
    refine ⟨[], .none fun r mem => ?_⟩
    rw [stale rfl] at mem
    rw [List.mem_singleton.1 mem]
    exact answer

theorem run_connections (turns : List Turn) :
    (c.stale = true → (perConnection (c.run turns)).1 = []) ∧
      (c.stale = false →
        ∃ responses, Paired c.buffer (perConnection (c.run turns)).1 responses) ∧
      ∀ calls ∈ (perConnection (c.run turns)).2, ∃ responses, Paired [] calls responses := by
  induction turns generalizing c with
  | nil =>
    have nothing : Paired c.buffer (perConnection (c.run [])).1 [] := .none (List.forall_mem_nil _)
    exact ⟨fun _ => rfl, fun _ => ⟨[], nothing⟩, List.forall_mem_nil _⟩
  | cons turn turns ih =>
    obtain ⟨unused, current, later⟩ := ih (c.call turn.method turn.params turn.episode).client
    have paired := paired_call c turn.method turn.params turn.episode unused current
    rw [run]
    rcases call_cases c turn.method turn.params turn.episode with
      ⟨mark, opens, written, writings, -⟩ | ⟨mark, opens, -⟩ | ⟨mark, opens, writings, -, unopened⟩
    · rw [perConnection_of_writes _ opens writings, mark]
      rw [held, mark, if_neg Bool.false_ne_true] at paired
      exact ⟨(absurd · Bool.false_ne_true), fun _ => paired, later⟩
    · rw [perConnection_of_opens _ opens, mark]
      rw [held, mark, if_pos rfl] at paired
      exact ⟨fun _ => rfl, (absurd ·.symm Bool.false_ne_true),
        List.forall_mem_cons.2 ⟨paired, later⟩⟩
    · rw [perConnection_of_unopened _ opens writings, mark]
      exact ⟨fun _ => unused unopened, (absurd ·.symm Bool.false_ne_true), later⟩

-- Every call that writes belongs to one connection, and the others do not read anything.
theorem run_partition (turns : List Turn) :
    (connections (c.run turns)).flatten = (c.run turns).filter (fun r => !r.writings.isEmpty) ∧
      (c.run turns).flatMap (·.read)
        = (connections (c.run turns)).flatten.flatMap (·.read) := by
  induction turns generalizing c with
  | nil => exact ⟨rfl, rfl⟩
  | cons turn turns ih =>
    obtain ⟨writers, reads⟩ := ih (c.call turn.method turn.params turn.episode).client
    rw [connections, List.flatten_cons] at writers reads
    rw [run, connections]
    rcases call_cases c turn.method turn.params turn.episode with
      ⟨-, opens, written, writings, -⟩ | ⟨-, opens, written, writings, -⟩ |
        ⟨-, opens, writings, read, -⟩
    · rw [perConnection_of_writes _ opens writings]
      simp [writings, ← writers, reads]
    · rw [perConnection_of_opens _ opens]
      simp [writings, ← writers, reads]
    · rw [perConnection_of_unopened _ opens writings]
      simp [writings, ← writers, reads, read]

/-- In every run, whatever the target does, the calls that end with an answer are the first ones on their
connection. The bytes read there are the responses of these calls in their order, up to what is left
on the buffer, and the response of each call is the value at its place in the stream of all bytes that
the target sends there. Every call that writes does so on one connection, and all that is read in the
run is read by these calls. -/
theorem run_paired (addr : String) (timeout : Duration) (turns : List Turn) :
    let reports := (fresh addr timeout).run turns
    (∀ calls ∈ connections reports, ∃ responses, Paired [] calls responses) ∧
      (connections reports).flatten = reports.filter (fun r => !r.writings.isEmpty) ∧
      reports.flatMap (·.read) = (connections reports).flatten.flatMap (·.read) := by
  refine ⟨fun calls mem => ?_, run_partition _ turns⟩
  obtain ⟨-, first, later⟩ := run_connections (fresh addr timeout) turns
  rcases List.mem_cons.1 mem with rfl | mem
  · exact first rfl
  · exact later calls mem

end Client

end AccelControl
