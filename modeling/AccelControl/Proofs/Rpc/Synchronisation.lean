import Mathlib.Data.List.Chain
import Mathlib.Data.List.Forall2
import AccelControl.Proofs.Rpc.Run

/-! The mark of a connection that is out of step.

A call sets the mark before it writes and clears it only when its request has been answered. So the
mark tells, after every call of a run, whether the call has ended with an answer, and the next call
opens another connection exactly if it has not.
-/

set_option autoImplicit false

namespace AccelControl.Client

variable (c : Client) (method : String) (params : ParamMap) (e : Episode)

/-- However a call ends, it leaves its connection out of step exactly if it ends without an answer. -/
theorem call_stale :
    (c.call method params e).client.stale = !(c.call method params e).outcome.isAnswer := by
  rcases c.opens_or_unopened e with opens | ⟨stale, unopened⟩
  · rw [call_of_opens method params e opens]
    exact exchange_stale _ _ _ _
  · rw [call_of_unopened method params e stale unopened]
    simp only [unopened_isAnswer, Bool.not_false]
    exact stale

variable {c}

theorem call_usesConnection (sync : c.stale = false) :
    (c.call method params e).UsesConnection := by
  unfold CallReport.UsesConnection
  rw [call_request, call_of_sync method params e sync]
  exact exchange_writesAfter _ _ _ _

theorem call_writesAfter_of_opened (stale : c.stale = true) (opened : e.opening = .opened) :
    (c.call method params e).WritesAfter ((c.call method params e).reopening c.addr .opened) := by
  unfold CallReport.reopening
  rw [call_request, call_of_opened method params e stale opened]
  exact exchange_writesAfter _ _ _ _

theorem call_reopens (stale : c.stale = true) : (c.call method params e).Reopens c.addr := by
  by_cases opened : e.opening = .opened
  · exact .inl (call_writesAfter_of_opened method params e stale opened)
  · unfold CallReport.Reopens CallReport.reopening
    rw [call_request, call_of_unopened method params e stale opened]
    exact .inr ⟨e.opening, opened, rfl⟩

variable (c)

/-- Whether a call opens another connection is decided by the mark alone. -/
theorem call_conduct : ((c.call method params e).Reopens c.addr ↔ c.stale = true) ∧
    ((c.call method params e).UsesConnection ↔ c.stale = false) := by
  cases sync : c.stale with
  | false =>
    have uses := call_usesConnection method params e sync
    have stays := uses.not_reopens c.addr
    exact ⟨⟨fun reopens => absurd reopens stays, nofun⟩, fun _ => rfl, fun _ => uses⟩
  | true =>
    have reopens := call_reopens method params e sync
    refine ⟨⟨fun _ => rfl, fun _ => reopens⟩, fun uses => ?_, nofun⟩
    exact absurd reopens (uses.not_reopens c.addr)

theorem run_stale (turns : List Turn) :
    ∀ r ∈ c.run turns, r.client.stale = !r.outcome.isAnswer := by
  induction turns generalizing c with
  | nil => exact fun r mem => nomatch mem
  | cons turn turns ih =>
    intro r mem
    rcases List.mem_cons.1 mem with rfl | mem
    · exact call_stale c turn.method turn.params turn.episode
    · exact ih _ r mem

/-- A run leaves its connection out of step exactly if its last call ends without an answer. -/
theorem after_stale {c : Client} {turns : List Turn} {r : CallReport}
    (last : (c.run turns).getLast? = some r) : (c.after turns).stale = !r.outcome.isAnswer := by
  rw [← client_of_getLast? last]
  exact run_stale c turns r (List.mem_of_getLast? last)

theorem run_isChain (turns : List Turn) :
    (c.run turns).IsChain fun before after =>
      (after.Reopens c.addr ↔ before.outcome.isAnswer = false) ∧
        (after.UsesConnection ↔ before.outcome.isAnswer = true) := by
  induction turns generalizing c with
  | nil => exact .nil
  | cons turn turns ih =>
    cases turns with
    | nil => exact .singleton _
    | cons next turns =>
      -- A call leaves the address as it is, so the claim for the later calls is about the same one.
      have rest := ih (c.call turn.method turn.params turn.episode).client
      rw [call_addr] at rest
      refine .cons_cons ?_ rest
      have conduct := call_conduct (c.call turn.method turn.params turn.episode).client
        next.method next.params next.episode
      rw [call_addr, call_stale] at conduct
      simpa using conduct

-- The whole request is written where sending is not cut off.
theorem run_writings (turns : List Turn) : List.Forall₂ (fun turn r =>
    ∀ written ∈ r.writings, written = turn.episode.sending.share r.request.bytes)
      turns (c.run turns) := by
  induction turns generalizing c with
  | nil => exact .nil
  | cons turn turns ih =>
    refine .cons (fun written mem => ?_) (ih _)
    exact eq_share_of_mem_writings c turn.method turn.params turn.episode mem

/-- The mark of a run, from the time when its connection is opened. After each call the connection is
in step exactly if the call has ended with an answer. The first call writes to the connection that
is there. Every other one opens another connection before it writes anything, and says so, exactly if
the call before has not ended with an answer; else it writes to the connection in use. What a call
writes is as much of its request as is sent: all of it, unless sending fails or is interrupted. -/
theorem run_synchronised (addr : String) (timeout : Duration) (turns : List Turn) :
    let reports := (fresh addr timeout).run turns
    (∀ r ∈ reports, r.client.stale = !r.outcome.isAnswer) ∧
      (∀ r ∈ reports.head?, r.UsesConnection) ∧
      (reports.IsChain fun before after =>
        (after.Reopens addr ↔ before.outcome.isAnswer = false) ∧
          (after.UsesConnection ↔ before.outcome.isAnswer = true)) ∧
      List.Forall₂ (fun turn r =>
        ∀ written ∈ r.writings, written = turn.episode.sending.share r.request.bytes)
        turns reports := by
  refine ⟨run_stale _ turns, fun r first => ?_, run_isChain (fresh addr timeout) turns,
    run_writings _ turns⟩
  cases turns with
  | nil => exact nomatch first
  | cons turn turns =>
    cases first
    exact call_usesConnection turn.method turn.params turn.episode rfl

end AccelControl.Client
