import AccelControl.Json.Printer
import AccelControl.Proofs.Json.Foresight.Number

/-! Integers, read back from their text. -/

set_option autoImplicit false

namespace AccelControl

namespace Text

def digitByte (d : Nat) : UInt8 := UInt8.ofNat (0x30 + d)

theorem encode_digitChar {d : Nat} (small : d < 10) :
    Utf8.encode [Nat.digitChar d] = [digitByte d] := by
  have all : ∀ d : Fin 10, Utf8.encode [Nat.digitChar d.val] = [digitByte d.val] := by decide
  exact all ⟨d, small⟩

theorem encode_decimal_single {n : Nat} (small : n < 10) :
    Utf8.encode (decimal n) = [digitByte n] := by
  rw [decimal, Nat.toDigits_of_lt_base small, encode_digitChar small]

theorem encode_decimal_digit {n d : Nat} (small : d < 10) (positive : 0 < n) :
    Utf8.encode (decimal (10 * n + d)) = Utf8.encode (decimal n) ++ [digitByte d] := by
  rw [decimal, ← Nat.toDigits_append_toDigits (by decide) positive small, Utf8.encode_append,
    Nat.toDigits_of_lt_base small, encode_digitChar small]
  rfl

end Text

namespace Json

theorem isDigit_digitByte {d : Nat} (small : d < 10) : isDigit (Text.digitByte d) = true := by
  have all : ∀ d : Fin 10, isDigit (Text.digitByte d.val) = true := by decide
  exact all ⟨d, small⟩

theorem digitValue_digitByte {d : Nat} (small : d < 10) : digitValue (Text.digitByte d) = d := by
  have all : ∀ d : Fin 10, digitValue (Text.digitByte d.val) = d.val := by decide
  exact all ⟨d, small⟩

theorem isDigit_of_mem_decimal {n : Nat} {b : UInt8} (mem : b ∈ Utf8.encode (Text.decimal n)) :
    isDigit b = true := by
  induction n using Nat.base_induction 10 (by decide) with
  | single n small =>
    rw [Text.encode_decimal_single small, List.mem_singleton] at mem
    rw [mem]
    exact isDigit_digitByte small
  | digit n d small positive ih =>
    rw [Text.encode_decimal_digit small positive, List.mem_append, List.mem_singleton] at mem
    rcases mem with mem | rfl
    · exact ih mem
    · exact isDigit_digitByte small

-- A number has a zero in front only if it is zero.
theorem decimal_cons (n : Nat) :
    ∃ b s, Utf8.encode (Text.decimal n) = b :: s ∧ isDigit b = true ∧ (b = 0x30 → n = 0) := by
  induction n using Nat.base_induction 10 (by decide) with
  | single n small =>
    have zero : ∀ d : Fin 10, Text.digitByte d.val = 0x30 → d.val = 0 := by decide
    exact ⟨_, [], Text.encode_decimal_single small, isDigit_digitByte small, zero ⟨n, small⟩⟩
  | digit n d small positive ih =>
    obtain ⟨b, s, front, digit, zero⟩ := ih
    refine ⟨b, s ++ [Text.digitByte d], ?_, digit, fun same => ?_⟩
    · rw [Text.encode_decimal_digit small positive, front, List.cons_append]
    · exact absurd (zero same) (Nat.ne_of_gt positive)

-- Digits that all go into a number are collected before those behind them.
theorem collect_append {n : Nat} {front : Bytes} (back : Bytes) (all : (collect n front).2.2 = 0) :
    (collect n (front ++ back)).1 = (collect (collect n front).1 back).1 ∧
      (collect n (front ++ back)).2.2 = (collect (collect n front).1 back).2.2 := by
  induction front generalizing n with
  | nil => exact ⟨rfl, rfl⟩
  | cons b front ih =>
    simp only [List.cons_append, collect] at all ⊢
    split
    · next fits =>
      rw [if_pos fits] at all
      exact ih all
    · next exceeds =>
      rw [if_neg exceeds] at all
      exact absurd all (Nat.succ_ne_zero _)

theorem collect_digit {n d : Nat} (digit : d < 10) (fits : n * 10 + d < 0x10000000000000000) :
    collect n [Text.digitByte d] = (n * 10 + d, 1, 0) := by
  rw [collect, digitValue_digitByte digit, if_pos fits]
  rfl

theorem collect_decimal {n : Nat} (small : n < 0x10000000000000000) :
    (collect 0 (Utf8.encode (Text.decimal n))).1 = n ∧
      (collect 0 (Utf8.encode (Text.decimal n))).2.2 = 0 := by
  induction n using Nat.base_induction 10 (by decide) with
  | single n digit =>
    rw [Text.encode_decimal_single digit, collect_digit digit (by omega)]
    exact ⟨by rw [Nat.zero_mul, Nat.zero_add], rfl⟩
  | digit n d digit positive ih =>
    obtain ⟨value, all⟩ := ih (by omega)
    rw [Text.encode_decimal_digit digit positive]
    obtain ⟨value', all'⟩ := collect_append [Text.digitByte d] all
    rw [value', all', value, collect_digit digit (by omega)]
    exact ⟨by rw [Nat.mul_comm], rfl⟩

def EndsNumber (rest : Bytes) : Prop :=
  ∀ b ∈ rest.head?, isDigit b = false ∧ b ≠ 0x2E ∧ b ≠ 0x65 ∧ b ≠ 0x45

theorem readDigits_decimal (n : Nat) {rest : Bytes} (ends : EndsNumber rest) :
    readDigits (Utf8.encode (Text.decimal n) ++ rest) = .ok (Utf8.encode (Text.decimal n), rest) := by
  have digits : ∀ b ∈ Utf8.encode (Text.decimal n), isDigit b = true := fun b mem =>
    isDigit_of_mem_decimal mem
  have stops : rest.takeWhile isDigit = [] ∧ rest.dropWhile isDigit = rest := by
    cases rest with
    | nil => exact ⟨rfl, rfl⟩
    | cons b rest => simp [(ends b rfl).1]
  obtain ⟨b, s, front, digit, -⟩ := decimal_cons n
  rw [front] at digits ⊢
  have digits' : ∀ c ∈ s, isDigit c = true := fun c mem => digits c (List.mem_cons_of_mem b mem)
  rw [List.cons_append, readDigits_cons digit, List.takeWhile_append_of_pos digits',
    List.dropWhile_append_of_pos digits', stops.1, stops.2, List.append_nil]

theorem readIntegerPart_decimal (n : Nat) {rest : Bytes} (ends : EndsNumber rest) :
    readIntegerPart (Utf8.encode (Text.decimal n) ++ rest)
      = .ok (Utf8.encode (Text.decimal n), rest) := by
  rw [readIntegerPart_ok]
  refine ⟨readDigits_decimal n ends, fun ⟨zero, longer⟩ => ?_⟩
  obtain ⟨b, s, front, -, zero'⟩ := decimal_cons n
  rw [front] at zero
  rw [zero' (Option.some.inj zero)] at longer
  exact absurd longer (by decide)

theorem readMagnitude_decimal (negative : Bool) (n : Nat) {rest : Bytes} (ends : EndsNumber rest) :
    readMagnitude negative (Utf8.encode (Text.decimal n) ++ rest)
      = .ok (⟨negative, Utf8.encode (Text.decimal n), none, none⟩, rest) := by
  have noFraction : readFraction rest = .ok (none, rest) := by
    cases rest with
    | nil => rfl
    | cons b rest => simp [readFraction, (ends b rfl).2.1]
  have noExponent : readExponent rest = .ok (none, rest) := by
    cases rest with
    | nil => rfl
    | cons b rest => simp [readExponent, (ends b rfl).2.2.1, (ends b rfl).2.2.2]
  simp only [readMagnitude, readIntegerPart_decimal n ends, noFraction, noExponent]

theorem ofMagnitude_negative (i : Integer) (negative : i.value < 0) :
    Number.ofMagnitude true i.value.natAbs = .integer i := by
  obtain ⟨value, lower, upper⟩ := i
  dsimp only at negative ⊢
  have nonzero : value.natAbs ≠ 0 := by omega
  have fits : value.natAbs ≤ 0x8000000000000000 := by omega
  have same : -(value.natAbs : Int) = value := by omega
  simp only [Number.ofMagnitude, if_true, if_neg nonzero, Integer.ofNegative?, dif_pos fits, same]

theorem ofMagnitude_nonnegative (i : Integer) (positive : 0 ≤ i.value) :
    Number.ofMagnitude false i.value.natAbs = .integer i := by
  obtain ⟨value, lower, upper⟩ := i
  dsimp only at positive ⊢
  have fits : value.natAbs < 0x10000000000000000 := by omega
  have same : (value.natAbs : Int) = value := by omega
  simp only [Number.ofMagnitude, Bool.false_eq_true, if_false, Integer.ofNat?, dif_pos fits, same]

theorem number?_decimal (negative : Bool) {n : Nat} (small : n < 0x10000000000000000) :
    NumberParts.number? ⟨negative, Utf8.encode (Text.decimal n), none, none⟩
      = some (.ofMagnitude negative n) := by
  obtain ⟨collected, all⟩ := collect_decimal small
  simp only [NumberParts.number?, all, and_self, if_true, collected]

/-- An integer is read back from its text. -/
theorem readNumber_integer (i : Integer) {rest : Bytes} (ends : EndsNumber rest) :
    readNumber (Utf8.encode (Text.signedDecimal i.value) ++ rest) = .ok (.integer i, rest) := by
  have small : i.value.natAbs < 0x10000000000000000 := by
    have lower := i.lower
    have upper := i.upper
    omega
  rw [readNumber_ok]
  by_cases negative : i.value < 0
  · refine ⟨⟨true, Utf8.encode (Text.decimal i.value.natAbs), none, none⟩, ?_, ?_⟩
    · rw [Text.signedDecimal, if_pos negative, Utf8.encode_cons]
      exact readMagnitude_decimal true i.value.natAbs ends
    · rw [number?_decimal true small, ofMagnitude_negative i negative]
  · refine ⟨⟨false, Utf8.encode (Text.decimal i.value.natAbs), none, none⟩, ?_, ?_⟩
    · rw [Text.signedDecimal, if_neg negative]
      obtain ⟨b, s, front, digit, -⟩ := decimal_cons i.value.natAbs
      have unsigned : readSign (Utf8.encode (Text.decimal i.value.natAbs) ++ rest)
          = (false, Utf8.encode (Text.decimal i.value.natAbs) ++ rest) := by
        have notMinus : b ≠ 0x2D := fun same => by rw [same] at digit; exact absurd digit (by decide)
        rw [front, List.cons_append, readSign, if_neg notMinus]
      rw [readNumberParts, unsigned]
      exact readMagnitude_decimal false i.value.natAbs ends
    · rw [number?_decimal false small, ofMagnitude_nonnegative i (Int.not_lt.1 negative)]

theorem readInteger_integer (i : Integer) {rest : Bytes} (ends : EndsNumber rest) :
    readInteger (Utf8.encode (Text.signedDecimal i.value) ++ rest) = .ok (.integer i, rest) :=
  readInteger_ok.2 ⟨readNumber_integer i ends, i, rfl⟩

end Json

end AccelControl
