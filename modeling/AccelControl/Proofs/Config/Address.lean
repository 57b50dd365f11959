import AccelControl.Config.Basic
import Mathlib.Data.Nat.Digits.Defs

/-! Addresses to connect to, told apart.

Behind the last colon of the address of a host stands its port, since there is no colon among
digits. What is in front of that colon is the host, in brackets exactly if it holds colons itself.
A path is never taken for a host, because the address of a host starts with neither a slash nor a
point.
-/

set_option autoImplicit false

namespace AccelControl

namespace Text

def splitAtLast? (c : Char) : List Char → Option (List Char × List Char)
  | [] => none
  | d :: s =>
    match splitAtLast? c s with
    | some (front, back) => some (d :: front, back)
    | none => if d = c then some ([], s) else none

theorem splitAtLast?_eq_none {c : Char} {s : List Char} (absent : c ∉ s) :
    splitAtLast? c s = none := by
  induction s with
  | nil => rfl
  | cons d s ih =>
    rw [List.mem_cons, not_or] at absent
    rw [splitAtLast?, ih absent.2]
    exact if_neg (Ne.symm absent.1)

theorem splitAtLast?_append {c : Char} {back : List Char} (absent : c ∉ back) (front : List Char) :
    splitAtLast? c (front ++ c :: back) = some (front, back) := by
  induction front with
  | nil =>
    rw [List.nil_append, splitAtLast?, splitAtLast?_eq_none absent]
    exact if_pos rfl
  | cons d front ih =>
    rw [List.cons_append, splitAtLast?, ih]

theorem decimal_injective : Function.Injective decimal := by
  intro m n same
  have value := congrArg (Nat.ofDigitChars 10 · 0) same
  simpa [decimal] using value

theorem colon_not_mem_decimal (n : Nat) : ':' ∉ decimal n := by
  intro mem
  exact nomatch Nat.isDigit_of_mem_toDigits (by decide) (by decide) mem

end Text

namespace ClientConfig

open Text (decimal splitAtLast?)

variable {c d : ClientConfig}

def StartsPath (s : List Char) : Prop := s.head? = some '/' ∨ s.head? = some '.'

theorem isUnixSocket_iff : c.isUnixSocket = true ↔ StartsPath c.serverAddr.toList := by
  rw [isUnixSocket, StartsPath]
  cases c.serverAddr.toList.head? with
  | none => simp
  | some first => simp

/-- The host in front of the port, in brackets if it holds colons. -/
def host (c : ClientConfig) : List Char :=
  if ':' ∈ c.serverAddr.toList then '[' :: c.serverAddr.toList ++ [']'] else c.serverAddr.toList

theorem serverAddress_of_unix (unix : c.isUnixSocket = true) : c.serverAddress = c.serverAddr := by
  rw [serverAddress, if_pos unix]

theorem serverAddress_of_host (hosted : c.isUnixSocket = false) :
    c.serverAddress.toList = c.host ++ ':' :: decimal c.port.toNat := by
  simp only [serverAddress, hosted, host, List.contains_iff_mem, Bool.false_eq_true, if_false]
  split
  · simp
  · simp

theorem splitAtLast?_serverAddress (hosted : c.isUnixSocket = false) :
    splitAtLast? ':' c.serverAddress.toList = some (c.host, decimal c.port.toNat) := by
  rw [serverAddress_of_host hosted]
  exact Text.splitAtLast?_append (Text.colon_not_mem_decimal _) c.host

theorem startsPath_serverAddress_iff : StartsPath c.serverAddress.toList ↔ c.isUnixSocket = true := by
  cases hosted : c.isUnixSocket with
  | true =>
    rw [serverAddress_of_unix hosted, ← isUnixSocket_iff, hosted]
  | false =>
    have plain : ¬StartsPath c.serverAddr.toList := by
      rw [← isUnixSocket_iff, hosted]
      exact Bool.false_ne_true
    have host : ¬StartsPath (c.host ++ ':' :: decimal c.port.toNat) := by
      rw [host]
      split
      · simp [StartsPath]
      · cases addr : c.serverAddr.toList with
        | nil => simp [StartsPath]
        | cons first others =>
          rw [addr] at plain
          exact plain
    rw [serverAddress_of_host hosted]
    exact iff_of_false host Bool.false_ne_true

theorem colon_mem_host_iff : ':' ∈ c.host ↔ ':' ∈ c.serverAddr.toList := by
  rw [host]
  split
  · next colons => simp [colons]
  · rfl

theorem serverAddr_eq_of_host_eq (same : c.host = d.host) : c.serverAddr = d.serverAddr := by
  have bracketed : ':' ∈ c.serverAddr.toList ↔ ':' ∈ d.serverAddr.toList := by
    rw [← colon_mem_host_iff, same, colon_mem_host_iff]
  rw [host, host] at same
  simp only [bracketed] at same
  apply String.toList_inj.1
  split at same
  · simpa using same
  · exact same

/-- Two addresses are the same only if they denote the same: the same path, or the same host and port. -/
theorem serverAddress_unambiguous (c d : ClientConfig) :
    (StartsPath c.serverAddress.toList ↔ c.isUnixSocket = true)
      ∧ (c.isUnixSocket = true → d.isUnixSocket = false → c.serverAddress ≠ d.serverAddress)
      ∧ (c.isUnixSocket = false → ∃ host,
          splitAtLast? ':' c.serverAddress.toList = some (host, decimal c.port.toNat)
          ∧ (':' ∉ c.serverAddr.toList → host = c.serverAddr.toList)
          ∧ (':' ∈ c.serverAddr.toList → host = '[' :: c.serverAddr.toList ++ [']']))
      ∧ (c.isUnixSocket = false → d.isUnixSocket = false →
          (c.serverAddress = d.serverAddress ↔ c.serverAddr = d.serverAddr ∧ c.port = d.port))
      ∧ (c.isUnixSocket = true → d.isUnixSocket = true →
          (c.serverAddress = d.serverAddress ↔ c.serverAddr = d.serverAddr)) := by
  refine ⟨startsPath_serverAddress_iff, fun unix hosted same => ?_, fun hosted => ?_,
    fun hosted hosted' => ⟨fun same => ?_, fun ⟨addr, port⟩ => ?_⟩, fun unix unix' => ?_⟩
  · have starts := startsPath_serverAddress_iff.2 unix
    rw [same, startsPath_serverAddress_iff, hosted] at starts
    exact Bool.false_ne_true starts
  · exact ⟨c.host, splitAtLast?_serverAddress hosted, fun plain => if_neg plain,
      fun colons => if_pos colons⟩
  · have split := splitAtLast?_serverAddress hosted
    rw [same, splitAtLast?_serverAddress hosted', Option.some.injEq, Prod.mk.injEq] at split
    exact ⟨serverAddr_eq_of_host_eq split.1.symm,
      (UInt16.toNat_inj.1 (Text.decimal_injective split.2)).symm⟩
  · rw [← String.toList_inj, serverAddress_of_host hosted, serverAddress_of_host hosted', host, host,
      addr, port]
  · rw [serverAddress_of_unix unix, serverAddress_of_unix unix']

end ClientConfig

end AccelControl
