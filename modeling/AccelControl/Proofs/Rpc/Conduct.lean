import AccelControl.Proofs.Rpc.Answer
import AccelControl.Proofs.Rpc.Synchronisation

/-! What a call does to its connection: whether it opens another one, what it writes and what it reads.

A call writes at most once, and what it writes are the first bytes of its request. It opens a
connection before that, or not at all. A call for which no connection opens neither writes nor reads.
-/

set_option autoImplicit false

namespace AccelControl

namespace CallReport

def opens (r : CallReport) : Bool := r.acts.contains (.opening .opened)

variable {r : CallReport} {acts : List Act}

theorem WritesAfter.writings (writes : r.WritesAfter acts)
    (silent : acts.filterMap Act.written? = []) :
    ∃ written, r.writings = [written] ∧ written <+: r.request.bytes := by
  obtain ⟨written, later, split, short, awaits⟩ := writes
  exact ⟨written, writings_eq silent split awaits, short⟩

theorem WritesAfter.opens (writes : r.WritesAfter acts) :
    r.opens = acts.contains (.opening .opened) := by
  obtain ⟨written, later, split, -, awaits⟩ := writes
  have none : later.contains (.opening .opened) = false := by
    simp only [List.contains_eq_mem, decide_eq_false_iff_not]
    exact fun mem => awaits _ mem
  simp only [CallReport.opens, split, List.contains_append, List.contains_cons, none]
  simp

end CallReport

namespace Client

variable (c : Client) (method : String) (params : ParamMap) (e : Episode)

/-- A call writes to the connection in use if it is in step. Else it writes to another connection, or
does nothing if none opens. -/
theorem call_cases :
    let r := c.call method params e
    (c.stale = false ∧ r.opens = false ∧
        ∃ written, r.writings = [written] ∧ written <+: r.request.bytes) ∨
      (c.stale = true ∧ r.opens = true ∧
        ∃ written, r.writings = [written] ∧ written <+: r.request.bytes) ∨
      c.stale = true ∧ r.opens = false ∧ r.writings = [] ∧ r.read = [] ∧ r.client.stale = true := by
  intro r
  cases stale : c.stale with
  | false =>
    have writes := call_usesConnection method params e stale
    exact .inl ⟨rfl, writes.opens, writes.writings rfl⟩
  | true =>
    by_cases opened : e.opening = .opened
    · have writes := call_writesAfter_of_opened method params e stale opened
      exact .inr (.inl ⟨rfl, writes.opens, writes.writings rfl⟩)
    · have same : r = _ := call_of_unopened method params e stale opened
      refine .inr (.inr ⟨rfl, ?_, ?_, ?_, ?_⟩)
      · simp [same, CallReport.opens, Request.announcement, Ne.symm opened]
      · rw [same]
        rfl
      · rw [same]
        rfl
      · rw [same]
        exact stale

end Client

end AccelControl
