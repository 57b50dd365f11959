import AccelControl.Duration.Units
import Mathlib.Data.Nat.Digits.Defs

/-! Spans of time, written in units and read back.

A span is split into amounts of years down to nanoseconds. Their texts are read one by one, and added up
they are the span again: at no point is there more than the whole, so nothing overflows.
-/

set_option autoImplicit false

namespace AccelControl.Duration

section total

def total (d : Duration) : Nat := d.seconds * 1000000000 + d.nanos

theorem total_injective {d d' : Duration} (same : d.total = d'.total) : d = d' := by
  obtain ⟨seconds, nanos, fits, broken⟩ := d
  obtain ⟨seconds', nanos', fits', broken'⟩ := d'
  simp only [total] at same
  rw [mk.injEq]
  omega

theorem total_lt (d : Duration) : d.total < 0x10000000000000000 * 1000000000 := by
  have fits := d.seconds_lt
  have broken := d.nanos_lt
  rw [total]
  omega

theorem eq_zero_of_isZero {d : Duration} (none : d.isZero = true) : d = zero := by
  simp only [isZero, Bool.and_eq_true, beq_iff_eq] at none
  apply total_injective
  rw [total, none.1, none.2]
  rfl

theorem word?_eq {n : Nat} (fits : n < 0x10000000000000000) : word? n = some n := if_pos fits

/-- What does not exceed the longest span is added. -/
theorem add?_total {d : Duration} {seconds nanos : Nat} (broken : nanos < 1000000000)
    (fits : d.total + seconds * 1000000000 + nanos < 0x10000000000000000 * 1000000000) :
    ∃ d', d.add? seconds nanos = some d' ∧ d'.total = d.total + seconds * 1000000000 + nanos := by
  have broken' := d.nanos_lt
  rw [total] at fits
  have whole : d.seconds + seconds + (d.nanos + nanos) / 1000000000 < 0x10000000000000000 := by omega
  refine ⟨⟨_, (d.nanos + nanos) % 1000000000, whole, Nat.mod_lt _ (by decide)⟩, ?_, ?_⟩
  · rw [add?, word?_eq (by omega), Option.bind_some, ofParts?, dif_pos whole]
  · simp only [total]
    omega

end total

structure Amount where
  number : Nat
  unit : TimeUnit
  name : String

namespace Amount

def nanos (a : Amount) : Nat := a.number * (a.unit.size.1 * 1000000000 + a.unit.size.2)

def text (a : Amount) : String := String.ofList (Text.decimal a.number) ++ a.name

def shown (a : Amount) : List String := if a.number = 0 then [] else [a.text]

/-- Whether a name is read letter by letter, up to a blank or a digit. -/
def isWord (name : List Char) : Bool :=
  name.all fun c => digit? c == none && !Text.isBlank c && isUnitLetter c

theorem isWord_cons {c : Char} {name : List Char} : isWord (c :: name) = true
    ↔ (digit? c = none ∧ Text.isBlank c = false ∧ isUnitLetter c = true) ∧ isWord name = true := by
  simp [isWord, and_assoc]

def Names (name : String) (unit : TimeUnit) : Prop :=
  TimeUnit.ofSpelling? name.toList = some unit ∧ isWord name.toList = true

instance (name : String) (unit : TimeUnit) : Decidable (Names name unit) :=
  inferInstanceAs (Decidable (_ ∧ _))

/-- An amount that is read back: its unit is known by its name, and its number is not too large. -/
structure Legible (a : Amount) : Prop where
  names : Names a.name a.unit
  number_lt : a.number < 0x10000000000000000
  broken : a.number * a.unit.size.2 < 1000000000

end Amount

variable {a : Amount} {d : Duration}

theorem addSpelled?_total (legible : a.Legible)
    (fits : d.total + a.nanos < 0x10000000000000000 * 1000000000) :
    ∃ d', d.addSpelled? a.number none a.name.toList = some d' ∧ d'.total = d.total + a.nanos := by
  have split : a.nanos = a.number * a.unit.size.1 * 1000000000 + a.number * a.unit.size.2 := by
    rw [Amount.nanos, Nat.mul_add, Nat.mul_assoc]
  rw [split, ← Nat.add_assoc] at fits
  have seconds : a.number * a.unit.size.1 < 0x10000000000000000 := by omega
  have nanos : a.number * a.unit.size.2 < 0x10000000000000000 := Nat.lt_trans legible.broken (by decide)
  obtain ⟨d', added, sum⟩ := add?_total legible.broken fits
  refine ⟨d', ?_, ?_⟩
  · simp [addSpelled?, addWhole?, legible.names.1, word?_eq seconds, word?_eq nanos, added]
  · rw [sum, split, Nat.add_assoc]

theorem digit?_digitChar {n : Nat} (small : n < 10) : digit? (Nat.digitChar n) = some n := by
  have all : ∀ n : Fin 10, digit? (Nat.digitChar n.val) = some n.val := by decide
  exact all ⟨n, small⟩

theorem readFrom_decimal {n : Nat} (fits : n < 0x10000000000000000) (last : Bool) (d : Duration)
    (rest : List Char) :
    readFrom (.between last) d (Text.decimal n ++ rest) = readFrom (.number n) d rest := by
  induction n using Nat.base_induction 10 (by decide) generalizing rest with
  | single n small =>
    rw [Text.decimal, Nat.toDigits_of_lt_base small, List.singleton_append, readFrom,
      digit?_digitChar small]
  | digit n digit small positive ih =>
    rw [Text.decimal, ← Nat.toDigits_append_toDigits (by decide) positive small,
      Nat.toDigits_of_lt_base small, List.append_assoc]
    refine (ih (by omega) _).trans ?_
    rw [List.singleton_append, readFrom, digit?_digitChar small]
    simp only [Nat.mul_comm n 10, word?_eq fits]

theorem readFrom_letters {n : Nat} {fraction : Option Fraction} {read letters : List Char}
    (word : Amount.isWord letters = true) (d : Duration) (rest : List Char) :
    readFrom (.unit n fraction read) d (letters ++ rest)
      = readFrom (.unit n fraction (letters.reverse ++ read)) d rest := by
  induction letters generalizing read with
  | nil => rfl
  | cons c letters ih =>
    obtain ⟨⟨notDigit, notBlank, letter⟩, others⟩ := Amount.isWord_cons.1 word
    rw [List.cons_append, readFrom, notDigit]
    simp only [notBlank, letter, if_true, Bool.false_eq_true, if_false, ih others,
      List.reverse_cons, List.append_assoc, List.singleton_append]

/-- The text of an amount, read up to its end. -/
theorem readFrom_text (legible : a.Legible) (last : Bool) (d : Duration) (rest : List Char) :
    readFrom (.between last) d (a.text.toList ++ rest)
      = readFrom (.unit a.number none a.name.toList.reverse) d rest := by
  obtain ⟨known, word⟩ := legible.names
  rw [Amount.text, String.toList_append, String.toList_ofList, List.append_assoc,
    readFrom_decimal legible.number_lt]
  cases name : a.name.toList with
  | nil =>
    rw [name] at known
    exact nomatch known
  | cons c name' =>
    rw [name] at word
    obtain ⟨⟨notDigit, notBlank, letter⟩, others⟩ := Amount.isWord_cons.1 word
    rw [List.cons_append, readFrom, notDigit]
    simp only [notBlank, letter, if_true, Bool.false_eq_true, if_false]
    rw [readFrom_letters others, List.reverse_cons]

/-- Amounts with blanks between them are added up, if there is room for all of them. -/
theorem readFrom_amounts {parts : List Amount} (nonempty : parts ≠ [])
    (legible : ∀ a ∈ parts, a.Legible) (last : Bool)
    (fits : d.total + (parts.map Amount.nanos).sum < 0x10000000000000000 * 1000000000) :
    ∃ d', readFrom (.between last) d ([' '].intercalate (parts.map (·.text.toList))) = some d'
      ∧ d'.total = d.total + (parts.map Amount.nanos).sum := by
  induction parts generalizing d last with
  | nil => exact absurd rfl nonempty
  | cons a parts ih =>
    obtain ⟨this, others⟩ := List.forall_mem_cons.1 legible
    simp only [List.map_cons, List.sum_cons, ← Nat.add_assoc] at fits ⊢
    obtain ⟨d', added, sum⟩ := addSpelled?_total this (Nat.lt_of_le_of_lt (Nat.le_add_right _ _) fits)
    rw [← sum] at fits ⊢
    cases parts with
    | nil =>
      refine ⟨d', ?_, by rw [List.map_nil, List.sum_nil, Nat.add_zero]⟩
      rw [List.map_nil, List.intercalate_singleton, ← List.append_nil a.text.toList,
        readFrom_text this, readFrom, List.reverse_reverse, added]
    | cons b parts =>
      obtain ⟨d'', read, sum'⟩ := ih (List.cons_ne_nil _ _) others true fits
      refine ⟨d'', ?_, sum'⟩
      have blank : digit? ' ' = none ∧ Text.isBlank ' ' = true := by decide
      rw [List.map_cons, List.intercalate_cons_cons, List.append_assoc,
        readFrom_text this, List.singleton_append, readFrom, blank.1, List.reverse_reverse, added]
      simp only [blank.2, if_true]
      exact read

section amounts

def Amount.counted (number : Nat) (unit : TimeUnit) (name : String) : Amount :=
  ⟨number, unit, if number = 1 then name else name ++ "s"⟩

def amounts (d : Duration) : List Amount :=
  let days := d.seconds % 31557600 % 2630016
  [.counted (d.seconds / 31557600) .year "year",
    .counted (d.seconds % 31557600 / 2630016) .month "month",
    .counted (days / 86400) .day "day",
    ⟨days % 86400 / 3600, .hour, "h"⟩,
    ⟨days % 3600 / 60, .minute, "m"⟩,
    ⟨days % 60, .second, "s"⟩,
    ⟨d.nanos / 1000000, .millisecond, "ms"⟩,
    ⟨d.nanos / 1000 % 1000, .microsecond, "us"⟩,
    ⟨d.nanos % 1000, .nanosecond, "ns"⟩]

theorem units_eq (given : ¬d.isZero = true) :
    d.units = String.intercalate " " (d.amounts.flatMap Amount.shown) := by
  rw [units, if_neg given]
  simp only [amounts, List.flatMap_cons, List.flatMap_nil, List.append_nil, List.append_assoc]
  rfl

theorem nanos_amounts (d : Duration) : (d.amounts.map Amount.nanos).sum = d.total := by
  -- Checked by computation alone, the products would be unfolded into sums.
  simp -implicitDefEqProofs only [amounts, Amount.nanos, Amount.counted, TimeUnit.size,
    List.map_cons, List.map_nil, List.sum_cons, List.sum_nil]
  rw [total]
  omega

theorem Amount.legible_counted {number : Nat} {unit : TimeUnit} {name : String}
    (one : Names name unit) (more : Names (name ++ "s") unit) (whole : unit.size.2 = 0)
    (fits : number < 0x10000000000000000) : (counted number unit name).Legible := by
  refine ⟨?_, fits, ?_⟩
  · rw [counted]
    split
    · exact one
    · exact more
  · rw [counted, whole]
    exact Nat.zero_lt_succ _

theorem Amount.legible_of_lt {number : Nat} {unit : TimeUnit} {name : String} (names : Names name unit)
    (fits : number < 86400 ∧ unit.size.2 = 0 ∨ number < 1000 ∧ unit.size.2 ≤ 1000000) :
    (mk number unit name).Legible := by
  rcases fits with ⟨fits, whole⟩ | ⟨fits, broken⟩
  · refine ⟨names, by dsimp only; omega, ?_⟩
    rw [whole]
    exact Nat.zero_lt_succ _
  · refine ⟨names, by dsimp only; omega, ?_⟩
    calc number * unit.size.2 ≤ 999 * 1000000 := Nat.mul_le_mul (Nat.le_of_lt_succ fits) broken
      _ < 1000000000 := by decide

theorem legible_amounts (d : Duration) : ∀ a ∈ d.amounts, a.Legible := by
  have fits := d.seconds_lt
  have broken := d.nanos_lt
  have milliseconds : d.nanos / 1000000 < 1000 := by omega
  simp only [amounts, List.forall_mem_cons, List.not_mem_nil, false_imp_iff, implies_true, and_true]
  refine ⟨?_, ?_, ?_, ?_, ?_, ?_, ?_, ?_, ?_⟩
  · exact Amount.legible_counted (by decide) (by decide) rfl (by omega)
  · exact Amount.legible_counted (by decide) (by decide) rfl (by omega)
  · exact Amount.legible_counted (by decide) (by decide) rfl (by omega)
  · exact Amount.legible_of_lt (by decide) (.inl ⟨by omega, rfl⟩)
  · exact Amount.legible_of_lt (by decide) (.inl ⟨by omega, rfl⟩)
  · exact Amount.legible_of_lt (by decide) (.inl ⟨by omega, rfl⟩)
  · exact Amount.legible_of_lt (by decide) (.inr ⟨milliseconds, by decide⟩)
  · exact Amount.legible_of_lt (by decide) (.inr ⟨by omega, by decide⟩)
  · exact Amount.legible_of_lt (by decide) (.inr ⟨by omega, by decide⟩)

def present (parts : List Amount) : List Amount := parts.filter fun a => a.number ≠ 0

theorem present_cons (a : Amount) (parts : List Amount) :
    present (a :: parts) = if a.number = 0 then present parts else a :: present parts := by
  by_cases none : a.number = 0
  · simp [present, none]
  · simp [present, none]

theorem flatMap_shown (parts : List Amount) :
    parts.flatMap Amount.shown = (present parts).map Amount.text := by
  induction parts with
  | nil => rfl
  | cons a parts ih =>
    rw [List.flatMap_cons, ih, Amount.shown, present_cons]
    split
    · rfl
    · rfl

theorem nanos_present (parts : List Amount) :
    ((present parts).map Amount.nanos).sum = (parts.map Amount.nanos).sum := by
  induction parts with
  | nil => rfl
  | cons a parts ih =>
    rw [present_cons, List.map_cons, List.sum_cons, ← ih]
    split
    · next none => rw [Amount.nanos, none, Nat.zero_mul, Nat.zero_add]
    · rw [List.map_cons, List.sum_cons]

end amounts

/-- A span is read back from its text. -/
theorem ofUnits?_units (d : Duration) : ofUnits? d.units = some d := by
  have read : readFrom (.between false) zero d.units.toList = some d := by
    by_cases none : d.isZero = true
    · rw [eq_zero_of_isZero none]
      rfl
    · have sum : ((present d.amounts).map Amount.nanos).sum = d.total := by
        rw [nanos_present, nanos_amounts]
      have nonempty : present d.amounts ≠ [] := by
        intro empty
        rw [empty] at sum
        exact none (total_injective (d := zero) sum ▸ rfl)
      have legible : ∀ a ∈ present d.amounts, a.Legible := fun a mem =>
        legible_amounts d a (List.mem_filter.1 mem).1
      have start : zero.total = 0 := rfl
      obtain ⟨d', read, same⟩ := readFrom_amounts (d := zero) nonempty legible false
        (by rw [start, Nat.zero_add, sum]; exact d.total_lt)
      rw [start, Nat.zero_add, sum] at same
      rw [total_injective same] at read
      rw [units_eq none, flatMap_shown, String.toList_intercalate, List.map_map]
      exact read
  rw [ofUnits?]
  split
  · next bare =>
    rw [bare] at read
    exact nomatch read
  · exact read

end AccelControl.Duration
