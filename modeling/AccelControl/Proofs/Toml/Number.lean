import AccelControl.Toml.ValueReader
import Mathlib.Data.Nat.Digits.Defs

/-! Natural numbers in TOML text, read up to the end of their line.

A date and a time begin with digits too, so a number is tried as one of these first. That fails, since
neither a dash nor a colon stands behind its digits.
-/

set_option autoImplicit false

namespace AccelControl

namespace Text

theorem decimal_eq_digits (n : Nat) :
    ∃ first others, decimal n = (first :: others).map Nat.digitChar
      ∧ (∀ d ∈ first :: others, d < 10)
      ∧ ofDigits (first :: others) = n ∧ (first = 0 → others = []) := by
  induction n using Nat.base_induction 10 (by decide) with
  | single n small =>
    refine ⟨n, [], Nat.toDigits_of_lt_base small, by simpa using small, ?_, fun _ => rfl⟩
    rw [ofDigits, digitsFrom, List.foldl_cons, List.foldl_nil, Nat.zero_mul, Nat.zero_add]
  | digit n d small positive ih =>
    obtain ⟨first, others, digits, all, value, zero⟩ := ih
    refine ⟨first, others ++ [d], ?_, ?_, ?_, fun none => ?_⟩
    · rw [decimal, ← Nat.toDigits_append_toDigits (by decide) positive small,
        Nat.toDigits_of_lt_base small, ← List.cons_append, List.map_append, ← digits]
      rfl
    · rw [← List.cons_append, List.forall_mem_append]
      exact ⟨all, by simpa using small⟩
    · rw [ofDigits, digitsFrom] at value ⊢
      rw [← List.cons_append, List.foldl_append, value, List.foldl_cons, List.foldl_nil, Nat.mul_comm]
    · rw [zero none, none] at value
      exact absurd value (Nat.ne_of_lt positive)

end Text

namespace Toml

inductive LineEnd : List Char → Prop
  | last : LineEnd []
  | newline (s : List Char) : LineEnd ('\n' :: s)

inductive Digital : List Char → Prop
  | stop {s : List Char} (ends : LineEnd s) : Digital s
  | digit {c : Char} {s : List Char} (decimal : '0' ≤ c ∧ c ≤ '9') (others : Digital s) :
      Digital (c :: s)

theorem Digital.head {c : Char} {s : List Char} (digital : Digital (c :: s)) :
    ('0' ≤ c ∧ c ≤ '9') ∨ c = '\n' := by
  cases digital with
  | stop ends =>
    cases ends
    exact .inr rfl
  | digit decimal others => exact .inl decimal

theorem Digital.tail {c : Char} {s : List Char} (decimal : '0' ≤ c ∧ c ≤ '9')
    (digital : Digital (c :: s)) : Digital s := by
  cases digital with
  | stop ends =>
    cases ends
    exact absurd decimal (by decide)
  | digit _ others => exact others

section moment

variable {s t : List Char}

theorem Digital.of_readFixed {width n m : Nat} (digital : Digital s)
    (read : readFixed width n s = some (m, t)) : Digital t := by
  induction width generalizing n s with
  | zero =>
    cases read
    exact digital
  | succ width ih =>
    cases s with
    | nil => exact nomatch read
    | cons c s =>
      rw [readFixed, Option.ite_none_right_eq_some] at read
      exact ih (digital.tail read.1) read.2

theorem Digital.of_readBounded {width lowest highest m : Nat} (digital : Digital s)
    (read : readBounded width lowest highest s = some (m, t)) : Digital t :=
  digital.of_readFixed (Option.filter_eq_some_iff.1 read).1

theorem readChar_of_digital {mark : Char} (digital : Digital s)
    (other : ¬('0' ≤ mark ∧ mark ≤ '9')) (inside : mark ≠ '\n') : readChar mark s = none := by
  cases s with
  | nil => rfl
  | cons c s =>
    rw [readChar, if_neg]
    rintro rfl
    exact digital.head.elim other inside

theorem skipDate_of_digital (digital : Digital s) : skipDate s = none := by
  rw [skipDate]
  cases read : readFixed 4 0 s with
  | none => rfl
  | some r =>
    have dash : readChar '-' r.2 = none :=
      readChar_of_digital (digital.of_readFixed read) (by decide) (by decide)
    simp [dash]

theorem skipTime_of_digital (digital : Digital s) : skipTime s = none := by
  rw [skipTime]
  cases read : readBounded 2 0 23 s with
  | none => rfl
  | some r =>
    have colon : readChar ':' r.2 = none :=
      readChar_of_digital (digital.of_readBounded read) (by decide) (by decide)
    simp [colon]

theorem readMoment_of_digital (digital : Digital s) : readMoment s = none := by
  rw [readMoment, skipDate_of_digital digital, skipTime_of_digital digital]
  rfl

end moment

section natural

variable {rest : List Char}

theorem digitOf_digitChar {d : Nat} (small : d < 10) : digitOf 10 (Nat.digitChar d) = some d := by
  have all : ∀ d : Fin 10, digitOf 10 (Nat.digitChar d.val) = some d.val := by decide
  exact all ⟨d, small⟩

theorem isDecimal_digitChar {d : Nat} (small : d < 10) :
    '0' ≤ Nat.digitChar d ∧ Nat.digitChar d ≤ '9' := by
  have all : ∀ d : Fin 10, '0' ≤ Nat.digitChar d.val ∧ Nat.digitChar d.val ≤ '9' := by decide
  exact all ⟨d, small⟩

theorem digital_digits {digits : List Nat} (small : ∀ d ∈ digits, d < 10) (ends : LineEnd rest) :
    Digital (digits.map Nat.digitChar ++ rest) := by
  induction digits with
  | nil => exact .stop ends
  | cons d digits ih =>
    obtain ⟨this, others⟩ := List.forall_mem_cons.1 small
    exact .digit (isDecimal_digitChar this) (ih others)

theorem readDigitsFrom_digits {digits done : List Nat} (small : ∀ d ∈ digits, d < 10)
    (given : done ≠ [] ∨ digits ≠ []) (ends : LineEnd rest) :
    readDigitsFrom (digitOf 10) false done (digits.map Nat.digitChar ++ rest)
      = some (done.reverse ++ digits, rest) := by
  induction digits generalizing done with
  | nil =>
    have given : done.isEmpty = false := by simpa using given
    have stops : digitOf 10 '\n' = none := by decide
    cases ends with
    | last => simp [readDigitsFrom, given]
    | newline s => simp [readDigitsFrom, given, stops]
  | cons d digits ih =>
    obtain ⟨this, others⟩ := List.forall_mem_cons.1 small
    rw [List.map_cons, List.cons_append, readDigitsFrom, digitOf_digitChar this]
    simp [ih others (.inl (List.cons_ne_nil d done))]

theorem readSign_of_digital {s : List Char} (digital : Digital s) :
    readSign s = ((false, false), s) := by
  unfold readSign
  split
  · exact absurd digital.head (by decide)
  · exact absurd digital.head (by decide)
  · rfl

theorem readWhole_decimal (n : Nat) (ends : LineEnd rest) :
    ∃ digits, readWhole (Text.decimal n ++ rest) = some (digits, rest)
      ∧ Text.ofDigits digits = n := by
  obtain ⟨first, others, digits, small, value, zero⟩ := Text.decimal_eq_digits n
  refine ⟨first :: others, ?_, value⟩
  rw [readWhole, readDigits, digits,
    readDigitsFrom_digits small (.inr (List.cons_ne_nil first others)) ends]
  by_cases none : first = 0
  · simp [zero none]
  · simp [none]

theorem digital_decimal (n : Nat) (ends : LineEnd rest) : Digital (Text.decimal n ++ rest) := by
  obtain ⟨first, others, digits, small, -⟩ := Text.decimal_eq_digits n
  rw [digits]
  exact digital_digits small ends

theorem int64?_natural {n : Nat} (fits : n < 0x8000000000000000) : int64? n = some (n : Int) := by
  rw [int64?, if_pos]
  omega

theorem readDecimal_decimal {n : Nat} (fits : n < 0x8000000000000000) (ends : LineEnd rest) :
    readDecimal (Text.decimal n ++ rest) = some (.integer n, rest) := by
  obtain ⟨digits, whole, value⟩ := readWhole_decimal n ends
  have sign := readSign_of_digital (digital_decimal n ends)
  generalize Text.decimal n ++ rest = s at whole sign
  rw [readDecimal, sign]
  simp only [Option.bind_eq_bind, whole, Option.bind_some]
  cases ends with
  | last => simp [value, int64?_natural fits]
  | newline s => simp [value, int64?_natural fits]

theorem readNumber_decimal {n : Nat} (fits : n < 0x8000000000000000) (ends : LineEnd rest) :
    readNumber (Text.decimal n ++ rest) = some (.integer n, rest) := by
  have digital := digital_decimal n ends
  have read := readDecimal_decimal fits ends
  have sign := readSign_of_digital digital
  generalize Text.decimal n ++ rest = s at digital read sign
  -- A letter behind a leading zero would mark another base.
  unfold readNumber
  split
  · exact absurd (digital.tail (by decide)).head (by decide)
  · exact absurd (digital.tail (by decide)).head (by decide)
  · exact absurd (digital.tail (by decide)).head (by decide)
  · rw [sign]
    dsimp only
    split
    · exact absurd digital.head (by decide)
    · exact absurd digital.head (by decide)
    · exact read

end natural

end Toml

end AccelControl
