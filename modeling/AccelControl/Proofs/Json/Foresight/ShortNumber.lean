import AccelControl.Proofs.Decimal.Magnitude
import AccelControl.Proofs.Json.Foresight.Number

/-! Numbers of which every beginning is a number.

A number is out of range if its digits, scaled, exceed the greatest finite number. Digits that are
still to come may bring it back into range only by an exponent below zero, and that takes more than
three hundred digits in front of the point or of the exponent.
-/

set_option autoImplicit false

namespace AccelControl.Json

theorem readDigits_ok {s digits rest : Bytes} (found : readDigits s = .ok (digits, rest)) :
    ∀ b ∈ digits, isDigit b = true := by
  cases s with
  | nil => cases found
  | cons b s =>
    simp only [readDigits] at found
    split at found
    · cases found
      exact fun c mem => List.mem_takeWhile_imp mem
    · cases found

theorem readFraction_digits {s rest : Bytes} {fraction : Option Bytes}
    (found : readFraction s = .ok (fraction, rest)) :
    ∀ b ∈ fraction.getD [], isDigit b = true := by
  cases s with
  | nil =>
    cases found
    exact fun b mem => nomatch mem
  | cons b s =>
    simp only [readFraction] at found
    split at found
    · obtain ⟨digits, read, rfl⟩ := ok_of_map found
      exact readDigits_ok read
    · cases found
      exact fun b mem => nomatch mem

theorem digitValue_le {b : UInt8} (digit : isDigit b = true) : digitValue b ≤ 9 := by
  simp only [isDigit, Bool.and_eq_true, decide_eq_true_eq, UInt8.le_iff_toNat_le] at digit
  have upper : b.toNat ≤ 0x39 := digit.2
  simp only [digitValue]
  omega

theorem collect_length (n : Nat) (digits : Bytes) :
    (collect n digits).2.1 + (collect n digits).2.2 = digits.length := by
  induction digits generalizing n with
  | nil => rfl
  | cons b digits ih =>
    simp only [collect]
    split
    · calc (collect (n * 10 + digitValue b) digits).2.1 + 1
            + (collect (n * 10 + digitValue b) digits).2.2
          = (collect (n * 10 + digitValue b) digits).2.1
            + (collect (n * 10 + digitValue b) digits).2.2 + 1 := Nat.add_right_comm _ _ _
        _ = digits.length + 1 := by rw [ih]
    · exact Nat.zero_add _

theorem collect_word {n : Nat} (word : n < 2 ^ 64) (digits : Bytes) :
    (collect n digits).1 < 2 ^ 64 := by
  induction digits generalizing n with
  | nil => exact word
  | cons b digits ih =>
    simp only [collect]
    split
    · next fits => exact ih fits
    · exact word

-- As many digits as are taken make the number greater by at most so many places.
theorem collect_lt {digits : Bytes} (all : ∀ b ∈ digits, isDigit b = true) (n : Nat) :
    (collect n digits).1 < (n + 1) * 10 ^ (collect n digits).2.1 := by
  induction digits generalizing n with
  | nil => simp [collect]
  | cons b digits ih =>
    have digit := digitValue_le (all b List.mem_cons_self)
    have rest := ih (fun c mem => all c (List.mem_cons_of_mem b mem)) (n * 10 + digitValue b)
    simp only [collect]
    split
    · calc (collect (n * 10 + digitValue b) digits).1
          < (n * 10 + digitValue b + 1) * 10 ^ (collect (n * 10 + digitValue b) digits).2.1 := rest
        _ ≤ (n + 1) * 10 * 10 ^ (collect (n * 10 + digitValue b) digits).2.1 := by
          gcongr
          omega
        _ = (n + 1) * 10 ^ ((collect (n * 10 + digitValue b) digits).2.1 + 1) := by ring
    · simp

-- Digits behind those that do not fit are not looked at.
theorem collect_append_of_unread {n : Nat} {front : Bytes} (unread : (collect n front).2.2 ≠ 0)
    (back : Bytes) : (collect n (front ++ back)).1 = (collect n front).1 ∧
      (collect n front).2.2 ≤ (collect n (front ++ back)).2.2 := by
  induction front generalizing n with
  | nil => exact absurd rfl unread
  | cons b front ih =>
    simp only [List.cons_append, collect] at unread ⊢
    split
    · next fits =>
      rw [if_pos fits] at unread
      exact ih unread
    · simp

theorem digitsFrom_append (n : Nat) (front back : List Nat) :
    Text.digitsFrom 10 n front ≤ Text.digitsFrom 10 n (front ++ back) := by
  have grows : ∀ m, m ≤ Text.digitsFrom 10 m back := by
    induction back with
    | nil => exact fun m => Nat.le_refl m
    | cons d back ih => exact fun m => le_trans (by omega) (ih (m * 10 + d))
  rw [Text.digitsFrom, Text.digitsFrom, List.foldl_append]
  exact grows _

namespace NumberParts

variable {p : NumberParts}

def Plain (p : NumberParts) : Prop :=
  (collect 0 p.whole).2.2 = 0 ∧ p.fraction = none ∧ p.exponent = none

def significand (p : NumberParts) : Nat :=
  (collect (collect 0 p.whole).1 (p.fraction.getD [])).1

def places (p : NumberParts) : Int :=
  (collect 0 p.whole).2.2 - (collect (collect 0 p.whole).1 (p.fraction.getD [])).2.1

def power (p : NumberParts) : Int :=
  match p.exponent with
  | none => 0
  | some (negative, digits) =>
    let n := Text.ofDigits (digits.map digitValue)
    if negative then -n else n

theorem number?_of_not_plain (scaled : ¬p.Plain) : p.number?
    = ((Binary64.ofNat p.negative p.significand).scaledByTen? (p.places + p.power)).map .float :=
  if_neg scaled

-- Parts that are no number are digits that cannot be scaled.
theorem exists_number? (inRange : ¬p.Plain →
    (Binary64.ofNat p.negative p.significand).scaledByTen? (p.places + p.power) ≠ none) :
    ∃ n, p.number? = some n := by
  by_cases plain : p.Plain
  · exact ⟨_, if_pos plain⟩
  · obtain ⟨x, found⟩ := Option.ne_none_iff_exists'.1 (inRange plain)
    rw [number?_of_not_plain plain, found]
    exact ⟨_, rfl⟩

theorem scaled_of_number? {n : Number} (number : p.number? = some n) (scaled : ¬p.Plain) :
    (Binary64.ofNat p.negative p.significand).scaledByTen? (p.places + p.power) ≠ none := by
  rw [number?_of_not_plain scaled] at number
  intro none
  rw [none] at number
  exact nomatch number

theorem significand_word (p : NumberParts) : p.significand < 2 ^ 64 :=
  collect_word (collect_word (by decide) _) _

/-- All that is read as a digit is one. -/
structure Digits (p : NumberParts) : Prop where
  whole : ∀ b ∈ p.whole, isDigit b = true
  fraction : ∀ b ∈ p.fraction.getD [], isDigit b = true

/-- No more than three hundred digits stand in front of the point or of the exponent, if there is
one. -/
def Short (p : NumberParts) : Prop :=
  p.whole.length ≤ 300 ∨ p.fraction = none ∧ p.exponent = none

instance (p : NumberParts) : Decidable p.Short := inferInstanceAs (Decidable (_ ∨ _ ∧ _))

-- Without an exponent, a number is below one power of ten for each digit in front of its point.
theorem significand_mul_le (digits : p.Digits) {power : Int} (le : power ≤ p.places)
    (up : 0 ≤ power) : p.significand * 10 ^ power.natAbs ≤ 10 ^ p.whole.length := by
  have whole := collect_lt digits.whole 0
  have fraction := collect_lt digits.fraction (collect 0 p.whole).1
  have length := collect_length 0 p.whole
  unfold places at le
  unfold significand
  generalize collect 0 p.whole = first at *
  generalize collect first.1 (p.fraction.getD []) = second at *
  have room : second.2.1 + power.natAbs ≤ first.2.2 := by omega
  calc second.1 * 10 ^ power.natAbs
      ≤ (first.1 + 1) * 10 ^ second.2.1 * 10 ^ power.natAbs := by gcongr
    _ = (first.1 + 1) * 10 ^ (second.2.1 + power.natAbs) := by ring
    _ ≤ 10 ^ first.2.1 * 10 ^ first.2.2 := by
      gcongr
      · omega
      · decide
    _ = 10 ^ p.whole.length := by rw [← pow_add, length]

/-- Parts without an exponent above zero are a number, if few digits stand in front of the point. -/
theorem exists_number?_of_length (digits : p.Digits) (few : p.whole.length ≤ 300)
    (lowers : p.power ≤ 0) : ∃ n, p.number? = some n := by
  apply exists_number?
  intro _
  apply Binary64.scaledByTen?_of_small p.negative p.significand_word
  intro up
  have below := p.significand_mul_le digits (by omega) up
  refine below.trans ?_
  gcongr
  decide

theorem digits_of_readNumberParts {s rest : Bytes} (found : readNumberParts s = .ok (p, rest)) :
    p.Digits where
  whole := by
    obtain ⟨s₁, s₂, whole, -⟩ := readMagnitude_ok found
    exact readDigits_ok (readIntegerPart_ok.1 whole).1
  fraction := by
    obtain ⟨s₁, s₂, -, fraction, -⟩ := readMagnitude_ok found
    exact readFraction_digits fraction

-- Digits that do not fit into a word any more count for their places only.
theorem exists_number?_of_append {negative : Bool} {front back : Bytes} {n : Number}
    (number : (⟨negative, front ++ back, none, none⟩ : NumberParts).number? = some n) :
    ∃ m, (⟨negative, front, none, none⟩ : NumberParts).number? = some m := by
  apply exists_number?
  intro scaled
  have unread : (collect 0 front).2.2 ≠ 0 := fun fits => scaled ⟨fits, rfl, rfl⟩
  obtain ⟨same, more⟩ := collect_append_of_unread unread back
  have inRange := scaled_of_number? number fun plain => unread (unread_of_collect_append plain.1)
  have digits : (⟨negative, front ++ back, none, none⟩ : NumberParts).significand
      = (⟨negative, front, none, none⟩ : NumberParts).significand := same
  rw [digits] at inRange
  refine Binary64.scaledByTen?_mono negative (significand_word _) ?_ inRange
  simpa [places, power, collect] using more

-- More digits of an exponent above zero only make the number greater.
theorem exists_number?_of_raised {negative : Bool} {whole front back : Bytes}
    {fraction : Option Bytes} {n : Number}
    (number : (⟨negative, whole, fraction, some (false, front ++ back)⟩ : NumberParts).number?
      = some n) :
    ∃ m, (⟨negative, whole, fraction, some (false, front)⟩ : NumberParts).number? = some m := by
  apply exists_number?
  intro _
  have inRange := scaled_of_number? number fun plain => nomatch plain.2.2
  refine Binary64.scaledByTen?_mono negative (significand_word _) ?_ inRange
  have grows := digitsFrom_append 0 (front.map digitValue) (back.map digitValue)
  rw [← List.map_append] at grows
  simpa [places, power, Text.ofDigits] using grows

-- More digits of an exponent carry it further in its direction.
theorem exists_number?_of_exponent {negative down : Bool} {whole front back : Bytes}
    {fraction : Option Bytes} {n : Number}
    (digits : (⟨negative, whole, fraction, some (down, front ++ back)⟩ : NumberParts).Digits)
    (few : whole.length ≤ 300)
    (number : (⟨negative, whole, fraction, some (down, front ++ back)⟩ : NumberParts).number?
      = some n) :
    ∃ m, (⟨negative, whole, fraction, some (down, front)⟩ : NumberParts).number? = some m := by
  cases down with
  | true =>
    refine exists_number?_of_length (p := ⟨negative, whole, fraction, some (true, front)⟩)
      ⟨digits.whole, digits.fraction⟩ few ?_
    simp [power]
  | false => exact exists_number?_of_raised number

/-- Whatever begins a number with few digits in front of the point is a number. -/
theorem Grows.number?_of_short {begun : NumberParts} (grown : begun.Grows p) (digits : p.Digits)
    (short : p.Short) {n : Number} (number : p.number? = some n) : ∃ m, begun.number? = some m := by
  cases grown with
  | whole grown =>
    obtain ⟨tail, rfl⟩ := grown
    rcases short with few | ⟨rfl, rfl⟩
    · refine exists_number?_of_length ⟨fun b mem => ?_, fun b mem => nomatch mem⟩ ?_ (le_refl 0)
      · exact digits.whole b (List.mem_append_left tail mem)
      · exact (List.prefix_append _ tail).length_le.trans few
    · exact exists_number?_of_append number
  | fraction grown =>
    obtain ⟨front, _, rfl, rfl, tail, rfl⟩ := grown
    have few := short.resolve_right fun plain => nomatch plain.1
    refine exists_number?_of_length ⟨digits.whole, fun b mem => ?_⟩ few (le_refl 0)
    exact digits.fraction b (List.mem_append_left tail mem)
  | exponent grown =>
    obtain ⟨down, front, _, rfl, rfl, tail, rfl⟩ := grown
    have few := short.resolve_right fun plain => nomatch plain.2
    exact exists_number?_of_exponent digits few number

end NumberParts

/-- Read a number with few digits in front of its point, and refuse any other. -/
def readShortNumber : Reader Number := fun s =>
  match readNumberParts s with
  | .ok (parts, _) => if parts.Short then readNumber s else .error .malformed
  | .error fault => .error fault

theorem readShortNumber_ok {s rest : Bytes} {n : Number}
    (found : readShortNumber s = .ok (n, rest)) :
    ∃ parts, readNumberParts s = .ok (parts, rest) ∧ parts.number? = some n ∧ parts.Short := by
  simp only [readShortNumber] at found
  split at found
  · next parts _ read =>
    split at found
    · next short =>
      obtain ⟨parts', read', number⟩ := readNumber_ok.1 found
      cases read.symm.trans read'
      exact ⟨_, read', number, short⟩
    · exact nomatch found
  · exact nomatch found

theorem gradual_readShortNumber : Gradual readShortNumber := by
  intro s n rest found
  obtain ⟨parts, read, number, short⟩ := readShortNumber_ok found
  refine ⟨parts, read, number, fun begun grown => ?_⟩
  exact grown.number?_of_short (NumberParts.digits_of_readNumberParts read) short number

end AccelControl.Json
