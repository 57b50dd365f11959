import AccelControl.Proofs.Rpc.Synchronisation
import AccelControl.Rpc.Connect
import Mathlib.Data.ENat.Lattice

/-! How often a client tries to connect.

Connecting is tried once more after each failure, as often as the configuration says. A call that finds
its connection out of step tries to open another one just once.
-/

set_option autoImplicit false

namespace AccelControl

/-- Attempts to open a connection begin with so many failures. The next one succeeds, unless they all
fail. -/
structure BeginsWithFailures (attempt : Nat → Option IoError) (failures : ℕ∞) : Prop where
  fails : ∀ number : Nat, number < failures → attempt number ≠ none
  succeeds : ∀ number : Nat, failures = number → attempt number = none

/-- Connecting keeps to its retries if the attempts begin with so many failures: every failure but that
of the last attempt is reported and followed by a delay and another attempt. -/
structure KeepsToRetries (config : ClientConfig) (attempt : Nat → Option IoError) (failures : ℕ∞)
    (report : ConnectReport) : Prop where
  attempts : report.attempts = min failures config.connRetries.toNat + 1
  connects : (∃ c, report.result = .ok c) ↔ failures ≤ config.connRetries.toNat
  delays : report.delays.map (fun delay => (delay.seconds, delay.nanos))
    = List.replicate (report.attempts - 1) (0, 200 * 10 ^ 6)
  logs : ∃ errors : List IoError,
    errors.map some = (List.range (report.attempts - 1)).map attempt ∧
    report.logs = errors.map (.retrying config.serverAddress · Client.retryDelay)
      ++ if report.result.isOk then [.connected config.serverAddress] else []
  error : ∀ e, report.result = .error e →
    ∃ error, attempt config.connRetries.toNat = some error ∧ e = .connect config.serverAddress error
  /-- Attempts that are not made have no say. -/
  made : ∀ attempt', (∀ number < report.attempts, attempt' number = attempt number) →
    Client.connect config attempt' = report

def Act.opening? : Act → Option Opening
  | .opening result => some result
  | _ => none

theorem Act.opening?_of_awaits (act : Act) (awaits : act.awaits) : act.opening? = none := by
  cases act with
  | opening result => exact absurd awaits not_false
  | report event => rfl
  | writing bytes => rfl
  | reading arrival => rfl

def CallReport.openings (r : CallReport) : List Opening := r.acts.filterMap Act.opening?

namespace BeginsWithFailures

variable {attempt : Nat → Option IoError}

theorem exists_errors (count : Nat) (fails : ∀ number < count, attempt number ≠ none) :
    ∃ errors : List IoError,
      errors.length = count ∧ errors.map some = (List.range count).map attempt := by
  induction count with
  | zero => exact ⟨[], rfl, rfl⟩
  | succ count ih =>
    obtain ⟨errors, rfl, same⟩ := ih fun number less => fails number (Nat.lt_succ_of_lt less)
    obtain ⟨error, last⟩ := Option.ne_none_iff_exists.1 (fails errors.length (Nat.lt_succ_self _))
    refine ⟨errors ++ [error], by simp, ?_⟩
    rw [List.map_append, same, List.range_succ, List.map_append, List.map_singleton,
      List.map_singleton, last]

/-- The errors of the failures that are followed by another attempt. -/
theorem exists_retried {failures : ℕ∞} (begins : BeginsWithFailures attempt failures)
    (retries : Nat) : ∃ errors : List IoError,
      errors.length = min failures retries ∧
      errors.map some = (List.range errors.length).map attempt ∧
      (errors.length = retries ∨ attempt errors.length = none) ∧
      (attempt errors.length = none ↔ failures ≤ retries) := by
  rcases le_or_gt failures retries with enough | short
  · lift failures to Nat using ne_top_of_le_ne_top (ENat.natCast_ne_top retries) enough
    obtain ⟨errors, rfl, same⟩ := exists_errors _ fun number less =>
      begins.fails number (Nat.cast_lt.2 less)
    have succeeds := begins.succeeds _ rfl
    exact ⟨errors, (min_eq_left enough).symm, same, .inr succeeds, iff_of_true succeeds enough⟩
  · obtain ⟨errors, rfl, same⟩ := exists_errors retries fun number less =>
      begins.fails number ((Nat.cast_lt.2 less).trans short)
    exact ⟨errors, (min_eq_right short.le).symm, same, .inl rfl,
      iff_of_false (begins.fails _ short) (not_le.2 short)⟩

end BeginsWithFailures

namespace Client

section attempts

variable {attempt : Nat → Option IoError} {number : Nat}

theorem tryOpen_of_success (succeeds : attempt number = none) (retries : Nat) :
    tryOpen attempt retries number = ⟨none, []⟩ := by
  rw [tryOpen.eq_def]
  simp only [succeeds]

theorem tryOpen_last {error : IoError} (fails : attempt number = some error) :
    tryOpen attempt 0 number = ⟨some error, []⟩ := by
  rw [tryOpen.eq_def]
  simp only [fails]

theorem tryOpen_of_failure {error : IoError} (fails : attempt number = some error) (retries : Nat) :
    tryOpen attempt (retries + 1) number = { tryOpen attempt retries (number + 1) with
      retried := error :: (tryOpen attempt retries (number + 1)).retried } := by
  rw [tryOpen.eq_def]
  simp only [fails]

/-- The attempts end with the first one that succeeds, or when no retries are left. -/
theorem tryOpen_eq {errors : List IoError} {retries : Nat} (few : errors.length ≤ retries)
    (fails : errors.map some = (List.range' number errors.length).map attempt)
    (ends : errors.length = retries ∨ attempt (number + errors.length) = none) :
    tryOpen attempt retries number = ⟨attempt (number + errors.length), errors⟩ := by
  induction errors generalizing retries number with
  | nil =>
    rw [List.length_nil, Nat.add_zero] at ends ⊢
    cases last : attempt number with
    | none => exact tryOpen_of_success last retries
    | some error =>
      rcases ends with rfl | succeeds
      · exact tryOpen_last last
      · exact nomatch last.symm.trans succeeds
  | cons error errors ih =>
    cases retries with
    | zero => exact absurd few (Nat.not_succ_le_zero _)
    | succ retries =>
      obtain ⟨first, later⟩ := List.cons.inj fails
      have next : number + (errors.length + 1) = number + 1 + errors.length := by omega
      rw [List.length_cons, next] at ends ⊢
      have tried := ih (Nat.le_of_succ_le_succ few) later (ends.imp_left Nat.succ.inj)
      rw [tryOpen_of_failure first.symm, tried]

end attempts

section connect

variable (config : ClientConfig) {attempt : Nat → Option IoError}

/-- What connecting comes to if the attempts fail with these errors, and the next one succeeds or is the
last. -/
theorem connect_eq {errors : List IoError} (few : errors.length ≤ config.connRetries.toNat)
    (fails : errors.map some = (List.range errors.length).map attempt)
    (ends : errors.length = config.connRetries.toNat ∨ attempt errors.length = none) :
    connect config attempt = {
      result := match attempt errors.length with
        | none => .ok (fresh config.serverAddress config.timeout)
        | some error => .error (.connect config.serverAddress error)
      logs := errors.map (.retrying config.serverAddress · retryDelay)
        ++ if (attempt errors.length).isNone then [.connected config.serverAddress] else []
      attempts := errors.length + 1
      delays := errors.map fun _ => retryDelay } := by
  rw [List.range_eq_range'] at fails
  have tried : tryOpen attempt config.connRetries.toNat 0 = ⟨attempt errors.length, errors⟩ := by
    rw [tryOpen_eq few fails (by rwa [Nat.zero_add]), Nat.zero_add]
  simp only [connect, tried]
  cases attempt errors.length with
  | none => rfl
  | some error => simp

theorem connect_keepsToRetries {failures : ℕ∞} (begins : BeginsWithFailures attempt failures) :
    KeepsToRetries config attempt failures (connect config attempt) := by
  obtain ⟨errors, count, same, ends, succeeds⟩ := begins.exists_retried config.connRetries.toNat
  have few : errors.length ≤ config.connRetries.toNat := by
    have least := count.le.trans (min_le_right _ _)
    exact Nat.cast_le.1 least
  have report := connect_eq config few same ends
  constructor
  case made =>
    intro attempt' agrees
    rw [report] at agrees ⊢
    have last := agrees errors.length (Nat.lt_succ_self _)
    rw [connect_eq config few, last]
    · refine same.trans (List.map_congr_left fun number mem => ?_)
      exact (agrees number (Nat.lt_succ_of_lt (List.mem_range.1 mem))).symm
    · rwa [last]
  all_goals rw [report]
  case attempts => rw [Nat.cast_succ, count]
  case connects =>
    rw [← succeeds]
    cases attempt errors.length with
    | none => simp
    | some error => simp
  case delays =>
    rw [List.map_const', List.map_replicate]
    rfl
  case logs =>
    refine ⟨errors, same, ?_⟩
    cases attempt errors.length with
    | none => rfl
    | some error => rfl
  case error =>
    intro e failed
    rcases ends with all | succeeds
    · rw [← all]
      cases last : attempt errors.length with
      | none =>
        rw [last] at failed
        exact nomatch failed
      | some error =>
        rw [last] at failed
        cases failed
        exact ⟨error, rfl, rfl⟩
    · rw [succeeds] at failed
      exact nomatch failed

end connect

section call

variable (c : Client) (method : String) (params : ParamMap) (e : Episode)

theorem openings_of_writesAfter {r : CallReport} {acts : List Act} (writes : r.WritesAfter acts) :
    r.openings = acts.filterMap Act.opening? := by
  obtain ⟨written, later, split, -, awaits⟩ := writes
  have first : Act.opening? (.writing written) = none := rfl
  rw [CallReport.openings, split, List.filterMap_append, List.filterMap_cons_none first,
    Act.filterMap_of_awaits Act.opening?_of_awaits awaits, List.append_nil]

/-- A call asks for another connection once if it finds its own out of step, and else not at all. -/
theorem call_openings :
    (c.call method params e).openings = if c.stale then [e.opening] else [] := by
  cases stale : c.stale with
  | false =>
    rw [openings_of_writesAfter (call_usesConnection method params e stale)]
    rfl
  | true =>
    by_cases opened : e.opening = .opened
    · rw [openings_of_writesAfter (call_writesAfter_of_opened method params e stale opened), opened]
      rfl
    · rw [call_of_unopened method params e stale opened]
      rfl

theorem call_outcome_of_openings {error : IoError}
    (failed : (c.call method params e).openings = [.failed error]) :
    (c.call method params e).outcome = .error (.connect c.addr error) := by
  rw [call_openings] at failed
  cases stale : c.stale with
  | false =>
    rw [stale] at failed
    exact nomatch failed
  | true =>
    rw [stale] at failed
    have opening : e.opening = .failed error := List.singleton_inj.1 failed
    rw [call_of_unopened method params e stale (by rw [opening]; exact nofun), opening]
    rfl

end call

theorem addr_of_connect {config : ClientConfig} {attempt : Nat → Option IoError} {c : Client}
    (connected : (connect config attempt).result = .ok c) : c.addr = config.serverAddress := by
  simp only [connect] at connected
  split at connected
  · cases connected
    rfl
  · exact nomatch connected

/-- Connecting is retried as the configuration says. A connected client that opens another connection
in a later call tries that just once, whatever the configuration says. -/
theorem connect_retries_call_does_not (config : ClientConfig) (attempt : Nat → Option IoError)
    (failures : ℕ∞) (begins : BeginsWithFailures attempt failures) :
    KeepsToRetries config attempt failures (connect config attempt) ∧
      ∀ c, (connect config attempt).result = .ok c →
        ∀ (turns : List Turn) (method : String) (params : ParamMap) (e : Episode),
          let report := (c.after turns).call method params e
          report.openings = (if (c.after turns).stale then [e.opening] else []) ∧
            ∀ error, report.openings = [.failed error] →
              report.outcome = .error (.connect config.serverAddress error) := by
  refine ⟨connect_keepsToRetries config begins, fun c connected turns method params e => ?_⟩
  refine ⟨call_openings _ method params e, fun error failed => ?_⟩
  rw [call_outcome_of_openings _ method params e failed, after_addr, addr_of_connect connected]

/-- Two retries for a socket that is there at the third attempt. -/
def lateSocket : ClientConfig := { ClientConfig.new "./rpc.sock" with connRetries := 2 }

def lateSocketAttempt (number : Nat) : Option IoError :=
  if number < 2 then some (.system 2) else none

/-- A call behind one that has met with silence. The socket is gone by then. -/
theorem connect_retries_call_does_not_lateSocket :
    BeginsWithFailures lateSocketAttempt 2 ∧
      (connect lateSocket lateSocketAttempt).attempts = 3 ∧
      ∃ c, (connect lateSocket lateSocketAttempt).result = .ok c ∧
        ((c.after [⟨⟨"first", .empty⟩, ⟨⟨.complete, [], .deadline⟩, .opened⟩⟩]).call "second" .empty
          ⟨⟨.complete, [], .deadline⟩, .failed (.system 2)⟩).outcome
            = .error (.connect "./rpc.sock" (.system 2)) := by
  have begins : BeginsWithFailures lateSocketAttempt 2 := by
    constructor
    · intro number less
      have less : number < 2 := Nat.cast_lt.1 less
      simp [lateSocketAttempt, less]
    · intro number same
      have same : 2 = number := Nat.cast_inj.1 same
      simp [lateSocketAttempt, ← same]
  obtain ⟨keeps, once⟩ := connect_retries_call_does_not lateSocket lateSocketAttempt 2 begins
  have connected : (connect lateSocket lateSocketAttempt).result
      = .ok (fresh "./rpc.sock" .minute) := rfl
  refine ⟨begins, Nat.cast_inj.1 keeps.attempts, _, connected, ?_⟩
  exact (once _ connected _ _ _ _).2 _ (once _ connected _ _ _ _).1

end Client

end AccelControl
