import AccelControl.Proofs.Json.Foresight.ShortNumber
import AccelControl.Proofs.Json.Verdict

/-! Numbers that are refused, and what can still come of them.

A number is refused for its form, and then for good, or because it is too large. A number that is too
large stays so with an exponent above zero, of which more digits only make it greater. Any other comes
into range when an exponent below zero takes away more places than the number has digits.
-/

set_option autoImplicit false

namespace AccelControl.Json

section exponent

variable {p digits whole : Bytes} {fraction : Option Bytes} {negative down : Bool}

-- An exponent that touches the end of the text goes on with the digits in front of the new bytes.
theorem readExponent_append_touching (found : readExponent p = .ok (some (down, digits), []))
    (more : Bytes) : readExponent (p ++ more)
      = .ok (some (down, digits ++ more.takeWhile isDigit), more.dropWhile isDigit) := by
  cases p with
  | nil => exact nomatch found
  | cons b p =>
    simp only [readExponent] at found
    split at found
    · next mark =>
      have nonempty : p ≠ [] := by
        rintro rfl
        cases found
      simp only [List.cons_append, readExponent, if_pos mark, readExponentSign_append nonempty]
      cases read : readDigits (readExponentSign p).2 with
      | error fault =>
        rw [read] at found
        cases found
      | ok result =>
        rw [read] at found
        obtain ⟨digits', rest⟩ := result
        cases found
        rw [readDigits_append_touching read]
        rfl
    · cases found

theorem readNumberParts_append_touching
    (found : readNumberParts p = .ok (⟨negative, whole, fraction, some (down, digits)⟩, []))
    (more : Bytes) : readNumberParts (p ++ more)
      = .ok (⟨negative, whole, fraction, some (down, digits ++ more.takeWhile isDigit)⟩,
        more.dropWhile isDigit) := by
  obtain ⟨s₁, s₂, first, second, third, sign⟩ := readMagnitude_ok found
  -- The exponent stands behind the other parts, so these do not touch the end of the text.
  have behind : s₂ ≠ [] := by
    rintro rfl
    exact nomatch third
  have behind' : s₁ ≠ [] := by
    rintro rfl
    cases second
    exact behind rfl
  have nonempty : p ≠ [] := by
    rintro rfl
    exact nomatch first
  have whole := readIntegerPart_append (readSign p).2 more
  have fraction := readFraction_append behind' more
  rw [first] at whole
  rw [second] at fraction
  simp only [readNumberParts, readMagnitude, readSign_append nonempty, whole.eq_of_read behind',
    fraction.eq_of_read behind, readExponent_append_touching third, ← sign]

end exponent

/-- A number that is too large and has an exponent above zero stays too large. -/
theorem readNumber_of_raised {p : Bytes} {parts : NumberParts} {digits : Bytes}
    (read : readNumberParts p = .ok (parts, [])) (tooLarge : parts.number? = none)
    (raised : parts.exponent = some (false, digits)) (more : Bytes) :
    readNumber (p ++ more) = .error .malformed := by
  obtain ⟨negative, whole, fraction, exponent⟩ := parts
  cases raised
  simp only [readNumber, readNumberParts_append_touching read]
  split
  · next n number =>
    obtain ⟨m, number'⟩ := NumberParts.exists_number?_of_raised number
    cases tooLarge.symm.trans number'
  · rfl

/-- What is read of a number settles what is read when more bytes follow. -/
theorem readNumber_settles (p : Bytes) :
    Settles p (readNumber p) fun more => readNumber (p ++ more) := by
  have continued := readNumberParts_append p
  cases before : readNumberParts p with
  | error fault =>
    rw [before] at continued
    simp only [readNumber, before]
    cases fault with
    | unfinished => exact .unfinished
    | malformed => exact .refused fun more => by rw [(continued more).eq_of_refused]
    | mismatch m => cases continued []
  | ok read =>
    obtain ⟨parts, rest⟩ := read
    rw [before] at continued
    by_cases ended : rest = []
    · subst ended
      cases number : parts.number? with
      | some n =>
        rw [readNumber_ok.2 ⟨parts, before, number⟩]
        exact .touching n
      | none =>
        rw [show readNumber p = .error .malformed by simp only [readNumber, before, number]]
        by_cases raised : ∃ digits, parts.exponent = some (false, digits)
        · obtain ⟨digits, raised⟩ := raised
          exact .refused (readNumber_of_raised before number raised)
        · refine .oversized List.suffix_rfl ⟨parts, before, number, ?_⟩ fun more n found => .inr ⟨n, found⟩
          exact fun digits same => raised ⟨digits, same⟩
    · have after := fun more => (continued more).eq_of_read ended
      cases number : parts.number? with
      | some n =>
        rw [readNumber_ok.2 ⟨parts, before, number⟩]
        refine .read n (consumes_readNumberParts _ _ _ before).1 fun more => ?_
        exact readNumber_ok.2 ⟨parts, after more, number⟩
      | none =>
        simp only [readNumber, before, after, number]
        exact .refused fun more => rfl

section mend

variable {p rest : Bytes} (tail : Bytes)

-- An exponent ends the digits in front of it.
theorem readDigits_append_exponent {digits : Bytes} (found : readDigits p = .ok (digits, rest)) :
    readDigits (p ++ 0x65 :: tail) = .ok (digits, rest ++ 0x65 :: tail) := by
  have stop : (0x65 :: tail : Bytes).takeWhile isDigit = [] := rfl
  have stop' : (0x65 :: tail : Bytes).dropWhile isDigit = 0x65 :: tail := rfl
  by_cases ended : rest = []
  · subst ended
    rw [readDigits_append_touching found, stop, stop', List.append_nil, List.nil_append]
  · have continued := readDigits_append p (0x65 :: tail)
    rw [found] at continued
    exact continued.eq_of_read ended

theorem readFraction_append_exponent {fraction : Option Bytes}
    (found : readFraction p = .ok (fraction, rest)) :
    readFraction (p ++ 0x65 :: tail) = .ok (fraction, rest ++ 0x65 :: tail) := by
  cases p with
  | nil =>
    cases found
    rfl
  | cons b p =>
    simp only [List.cons_append, readFraction] at found ⊢
    split at found
    · next point =>
      obtain ⟨digits, read, rfl⟩ := ok_of_map found
      rw [if_pos point, readDigits_append_exponent tail read]
      rfl
    · next other =>
      cases found
      rw [if_neg other]
      rfl

-- Where no exponent is read, nothing is.
theorem readExponent_none (found : readExponent p = .ok (none, rest)) : rest = p := by
  cases p with
  | nil =>
    cases found
    rfl
  | cons b p =>
    simp only [readExponent] at found
    split at found
    · cases read : readDigits (readExponentSign p).2 with
      | error fault =>
        rw [read] at found
        cases found
      | ok result =>
        rw [read] at found
        cases found
    · cases found
      rfl

/-- A number without an exponent, with one behind it. -/
theorem readNumberParts_append_exponent {parts : NumberParts}
    (found : readNumberParts p = .ok (parts, [])) (plain : parts.exponent = none) :
    readNumberParts (p ++ 0x65 :: tail) = (readExponent (0x65 :: tail)).map fun (exponent, rest) =>
      ({ parts with exponent }, rest) := by
  obtain ⟨s₁, s₂, first, second, third, sign⟩ := readMagnitude_ok found
  have nonempty : p ≠ [] := by
    rintro rfl
    exact nomatch first
  have ended : s₂ = [] := by
    rw [plain] at third
    exact (readExponent_none third).symm
  obtain ⟨digits, proper⟩ := readIntegerPart_ok.1 first
  have whole := readIntegerPart_ok.2 ⟨readDigits_append_exponent tail digits, proper⟩
  have fraction := readFraction_append_exponent tail second
  rw [ended, List.nil_append] at fraction
  rw [readNumberParts, readSign_append nonempty, readMagnitude_of_fraction _ whole fraction, sign]

def manyPlaces (zeros : Nat) : Bytes := 0x31 :: List.replicate zeros 0x30

theorem manyPlaces_digits (zeros : Nat) : ∀ b ∈ manyPlaces zeros, isDigit b = true := by
  intro b mem
  rcases List.mem_cons.1 mem with rfl | mem
  · rfl
  · rw [List.eq_of_mem_replicate mem]
    rfl

theorem readExponent_manyPlaces (zeros : Nat) :
    readExponent (0x65 :: 0x2D :: manyPlaces zeros) = .ok (some (true, manyPlaces zeros), []) := by
  have digits : readDigits (manyPlaces zeros) = .ok (manyPlaces zeros, []) := by
    have all : ∀ b ∈ List.replicate zeros (0x30 : UInt8), isDigit b = true := fun b mem =>
      manyPlaces_digits zeros b (List.mem_cons_of_mem _ mem)
    rw [manyPlaces, readDigits_cons rfl, List.takeWhile_eq_self_iff.2 all,
      List.dropWhile_eq_nil_iff.2 all]
  simp [readExponent, readExponentSign, digits, Except.map]

theorem digitsFrom_zeros (n zeros : Nat) :
    Text.digitsFrom 10 n (List.replicate zeros 0) = n * 10 ^ zeros := by
  induction zeros generalizing n with
  | zero => exact (Nat.mul_one n).symm
  | succ zeros ih =>
    calc Text.digitsFrom 10 n (List.replicate (zeros + 1) 0)
        = Text.digitsFrom 10 (n * 10) (List.replicate zeros 0) := rfl
      _ = n * 10 * 10 ^ zeros := ih _
      _ = n * 10 ^ (zeros + 1) := by ring

-- Whatever digits stand in front.
theorem lt_ofDigits_manyPlaces (front : Bytes) (zeros : Nat) :
    zeros < Text.ofDigits ((front ++ manyPlaces zeros).map digitValue) := by
  have behind : Text.ofDigits ((front ++ manyPlaces zeros).map digitValue)
      = (Text.ofDigits (front.map digitValue) * 10 + 1) * 10 ^ zeros := by
    rw [← digitsFrom_zeros]
    simp [Text.ofDigits, Text.digitsFrom, manyPlaces, digitValue]
  rw [behind]
  calc zeros < 10 ^ zeros := Nat.lt_pow_self (by decide)
    _ ≤ (Text.ofDigits (front.map digitValue) * 10 + 1) * 10 ^ zeros :=
      Nat.le_mul_of_pos_left _ (Nat.succ_pos _)

/-- A number is within range with an exponent that takes away more places than it has digits. -/
theorem NumberParts.exists_number?_of_lowered (parts : NumberParts) {digits : Bytes}
    (lowered : parts.exponent = some (true, digits))
    (enough : parts.whole.length < Text.ofDigits (digits.map digitValue)) :
    ∃ n, parts.number? = some n := by
  apply exists_number?
  intro _
  apply Binary64.scaledByTen?_of_negative _ parts.significand_word
  have length := collect_length 0 parts.whole
  simp only [places, power, lowered, if_true]
  omega

/-- A number that is too large so far goes on to be one that is not. -/
theorem Oversized.exists_mended {number : Bytes} (tooLarge : Oversized number) :
    ∃ more n, readNumber (number ++ more) = .ok (n, []) := by
  obtain ⟨⟨negative, whole, fraction, exponent⟩, read, -, notRaised⟩ := tooLarge
  have all := manyPlaces_digits whole.length
  match exponent with
  | none =>
    obtain ⟨n, number⟩ := NumberParts.exists_number?_of_lowered
      ⟨negative, whole, fraction, some (true, manyPlaces whole.length)⟩ rfl
      (lt_ofDigits_manyPlaces [] whole.length)
    refine ⟨0x65 :: 0x2D :: manyPlaces whole.length, n, readNumber_ok.2 ⟨_, ?_, number⟩⟩
    rw [readNumberParts_append_exponent _ read rfl, readExponent_manyPlaces]
    rfl
  | some (true, digits) =>
    obtain ⟨n, number⟩ := NumberParts.exists_number?_of_lowered
      ⟨negative, whole, fraction, some (true, digits ++ manyPlaces whole.length)⟩ rfl
      (lt_ofDigits_manyPlaces digits whole.length)
    refine ⟨manyPlaces whole.length, n, readNumber_ok.2 ⟨_, ?_, number⟩⟩
    rw [readNumberParts_append_touching read, List.takeWhile_eq_self_iff.2 all,
      List.dropWhile_eq_nil_iff.2 all]
  | some (false, digits) => exact absurd rfl (notRaised digits)

end mend

end AccelControl.Json
