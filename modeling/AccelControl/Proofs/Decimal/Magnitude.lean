import Mathlib.Algebra.Order.Field.Power
import Mathlib.Tactic.FieldSimp
import Mathlib.Tactic.GCongr
import Mathlib.Tactic.Linarith
import Mathlib.Tactic.NormNum
import Mathlib.Tactic.Positivity
import Mathlib.Tactic.Ring
import AccelControl.Decimal.Binary64

/-! How large numbers become when they are rounded and scaled.

Rounding does not cross a power of two, and it overflows only above the greatest finite number. So a
natural number is rounded by less than a factor of two, and what can be scaled by one power of ten can
be scaled by every smaller one.
-/

set_option autoImplicit false

namespace AccelControl

theorem le_roundQuotient {num den k : Nat} (positive : 0 < den) (below : k * den ≤ num) :
    k ≤ roundQuotient num den := by
  have floor : k ≤ num / den := (Nat.le_div_iff_mul_le positive).2 below
  unfold roundQuotient
  dsimp only
  split_ifs <;> omega

theorem roundQuotient_le {num den k : Nat} (positive : 0 < den) (above : num ≤ k * den) :
    roundQuotient num den ≤ k := by
  have split := Nat.div_add_mod num den
  have floor : num / den ≤ k := Nat.div_le_of_le_mul (by rwa [Nat.mul_comm])
  unfold roundQuotient
  dsimp only
  -- Only a remainder other than zero is rounded up, and then the quotient is less than the bound.
  rcases Nat.eq_zero_or_pos (num % den) with none | some
  · rw [if_pos (by omega)]
    exact floor
  · have less : num / den < k := by
      apply Nat.lt_of_mul_lt_mul_left (a := den)
      rw [Nat.mul_comm den k]
      omega
    split_ifs <;> omega

namespace Binary64

def magnitude (x : Binary64) : ℚ := x.significand * 2 ^ x.exponent

theorem magnitude_zero (negative : Bool) : (zero negative).magnitude = 0 := by
  simp [magnitude, zero]

theorem magnitude_nonneg (x : Binary64) : 0 ≤ x.magnitude := by
  unfold magnitude
  positivity

theorem two_pow_natAbs {e : Int} (nonneg : 0 ≤ e) : ((Nat.pow 2 e.natAbs : Nat) : ℚ) = 2 ^ e := by
  have cast : (e.natAbs : Int) = e := Int.natAbs_of_nonneg nonneg
  rw [← cast, Int.natAbs_natCast, zpow_natCast]
  exact Nat.cast_pow 2 e.natAbs

theorem two_pow_natAbs_neg {e : Int} (negative : e < 0) :
    ((Nat.pow 2 e.natAbs : Nat) : ℚ) = (2 ^ e)⁻¹ := by
  rw [← zpow_neg, ← two_pow_natAbs (by omega), Int.natAbs_neg]

theorem ratio_magnitude (x : Binary64) :
    0 < x.ratio.2 ∧ (x.ratio.1 : ℚ) / x.ratio.2 = x.magnitude := by
  unfold ratio magnitude
  split_ifs with negative
  · refine ⟨Nat.pow_pos Nat.two_pos, ?_⟩
    rw [two_pow_natAbs_neg negative, div_inv_eq_mul]
  · refine ⟨Nat.one_pos, ?_⟩
    rw [Nat.cast_mul, two_pow_natAbs (not_lt.1 negative), Nat.cast_one, div_one]

theorem scaled_div (num : Nat) {den : Nat} (positive : 0 < den) (e : Int) :
    0 < (scaled num den e).2 ∧
      ((scaled num den e).1 : ℚ) / (scaled num den e).2 = (num : ℚ) / den / 2 ^ e := by
  unfold scaled
  split_ifs with negative
  · refine ⟨positive, ?_⟩
    rw [Nat.cast_mul, two_pow_natAbs_neg negative]
    ring
  · refine ⟨Nat.mul_pos positive (Nat.pow_pos Nat.two_pos), ?_⟩
    rw [Nat.cast_mul, two_pow_natAbs (not_lt.1 negative), div_div]

section exponent

variable {num den : Nat}

-- The lengths of numerator and denominator leave two exponents in question.
theorem guess_bounds (positive : 0 < num) (positive' : 0 < den) :
    (2 : ℚ) ^ ((num.log2 : Int) - den.log2 - 1) < num / den ∧
      (num : ℚ) / den < 2 ^ ((num.log2 : Int) - den.log2 + 1) := by
  have den_pos : (0 : ℚ) < den := by exact_mod_cast positive'
  have num_ge : (2 : ℚ) ^ (num.log2 : Int) ≤ num := by
    rw [zpow_natCast]
    exact_mod_cast Nat.log2_self_le (Nat.pos_iff_ne_zero.1 positive)
  have num_lt : (num : ℚ) < 2 ^ ((num.log2 : Int) + 1) := by
    have less := Nat.lt_log2_self (n := num)
    exact_mod_cast less
  have den_ge : (2 : ℚ) ^ (den.log2 : Int) ≤ den := by
    rw [zpow_natCast]
    exact_mod_cast Nat.log2_self_le (Nat.pos_iff_ne_zero.1 positive')
  have den_lt : (den : ℚ) < 2 ^ ((den.log2 : Int) + 1) := by
    have less := Nat.lt_log2_self (n := den)
    exact_mod_cast less
  constructor
  · rw [lt_div_iff₀ den_pos]
    calc (2 : ℚ) ^ ((num.log2 : Int) - den.log2 - 1) * den
        < 2 ^ ((num.log2 : Int) - den.log2 - 1) * 2 ^ ((den.log2 : Int) + 1) := by gcongr
      _ = 2 ^ (num.log2 : Int) := by rw [← zpow_add₀ two_ne_zero]; ring_nf
      _ ≤ num := num_ge
  · rw [div_lt_iff₀ den_pos]
    calc (num : ℚ) < 2 ^ ((num.log2 : Int) + 1) := num_lt
      _ = 2 ^ ((num.log2 : Int) - den.log2 + 1) * 2 ^ (den.log2 : Int) := by
        rw [← zpow_add₀ two_ne_zero]; ring_nf
      _ ≤ 2 ^ ((num.log2 : Int) - den.log2 + 1) * den := by gcongr

/-- The exponent of a quotient leaves it 53 bits, and less only if it is the least exponent. -/
theorem exponentOf_bounds (positive : 0 < num) (positive' : 0 < den) :
    (num : ℚ) / den < 2 ^ (53 + exponentOf num den) ∧
      (exponentOf num den = leastExponent ∨ 2 ^ (52 + exponentOf num den) ≤ (num : ℚ) / den) := by
  obtain ⟨above, below⟩ := guess_bounds positive positive'
  unfold exponentOf
  dsimp only
  generalize guessed : (num.log2 : Int) - den.log2 - 52 = guess
  rw [show (num.log2 : Int) - den.log2 - 1 = 52 + (guess - 1) by omega] at above
  rw [show (num.log2 : Int) - den.log2 + 1 = 53 + guess by omega] at below
  obtain ⟨unit_pos, unit⟩ := scaled_div num positive' guess
  generalize scaled num den guess = unit_ratio at unit_pos unit
  obtain ⟨n, d⟩ := unit_ratio
  have d_pos : (0 : ℚ) < d := by exact_mod_cast unit_pos
  have bits : ((Nat.pow 2 52 : Nat) : ℚ) = 2 ^ (52 : Int) :=
    two_pow_natAbs (e := 52) (by decide)
  -- Before the least exponent is taken into account, both bounds hold.
  have bounds : (num : ℚ) / den < 2 ^ (53 + if n < d * Nat.pow 2 52 then guess - 1 else guess) ∧
      2 ^ (52 + if n < d * Nat.pow 2 52 then guess - 1 else guess) ≤ (num : ℚ) / den := by
    have compare : n < d * Nat.pow 2 52 ↔ (num : ℚ) / den < 2 ^ (52 + guess) := by
      rw [← Nat.cast_lt (α := ℚ), Nat.cast_mul, bits, mul_comm, ← div_lt_iff₀ d_pos, unit,
        div_lt_iff₀ (by positivity), ← zpow_add₀ two_ne_zero]
    split_ifs with short
    · refine ⟨?_, above.le⟩
      rw [show (53 : Int) + (guess - 1) = 52 + guess by omega]
      exact compare.1 short
    · exact ⟨below, not_lt.1 fun less => short (compare.2 less)⟩
  generalize (if n < d * Nat.pow 2 52 then guess - 1 else guess) = e at bounds ⊢
  rcases le_total e leastExponent with low | high
  · rw [max_eq_right low]
    refine ⟨bounds.1.trans_le ?_, .inl rfl⟩
    gcongr
    exact one_le_two
  · rw [max_eq_left high]
    exact ⟨bounds.1, .inr bounds.2⟩

/-- What rounding a quotient comes to: so many units of a power of two, which lie between the same
multiples of the unit as the quotient. -/
structure Rounds (q : ℚ) (result : Option Binary64) (unit : Int) (units : Nat) : Prop where
  upper : q < 2 ^ (53 + unit)
  lower : unit = leastExponent ∨ 2 ^ (52 + unit) ≤ q
  units_le : ∀ k : Nat, q ≤ k * 2 ^ unit → units ≤ k
  le_units : ∀ k : Nat, k * 2 ^ unit ≤ q → k ≤ units
  finite : ∀ y ∈ result, unit ≤ greatestExponent ∧ y.magnitude = units * 2 ^ unit
  overflow : result = none → greatestExponent < unit ∨ unit = greatestExponent ∧ units = Nat.pow 2 53

/-- So many units as a number of 53 bits. Rounding may carry into one more bit, which makes the next
power of two. -/
def ofUnits? (negative : Bool) (units : Nat) (unit : Int) : Option Binary64 :=
  if units = Nat.pow 2 53 then
    if greatestExponent < unit + 1 then none else some ⟨negative, Nat.pow 2 52, unit + 1⟩
  else if greatestExponent < unit then none
  else some ⟨negative, units, unit⟩

theorem ofRatio?_eq (negative : Bool) (nonzero : num ≠ 0) {unit : Int} {n d : Nat}
    (exponent : exponentOf num den = unit) (quotient : scaled num den unit = (n, d)) :
    ofRatio? negative num den = ofUnits? negative (roundQuotient n d) unit := by
  delta ofRatio? ofUnits?
  rw [if_neg nonzero, exponent]
  -- The powers are left closed, as the kernel would count them out.
  generalize Nat.pow 2 53 = carried
  generalize Nat.pow 2 52 = half
  by_cases carry : roundQuotient n d = carried
  · simp only [quotient, carry, if_true]
  · simp only [quotient, carry, if_false]

theorem ofUnits?_finite {negative : Bool} {units : Nat} {unit : Int} {y : Binary64}
    (found : ofUnits? negative units unit = some y) :
    unit ≤ greatestExponent ∧ y.magnitude = units * 2 ^ unit := by
  delta ofUnits? at found
  by_cases carry : units = Nat.pow 2 53
  · have double : ((Nat.pow 2 53 : Nat) : ℚ) = (Nat.pow 2 52 : Nat) * 2 := by
      rw [show Nat.pow 2 53 = Nat.pow 2 52 * 2 from rfl, Nat.cast_mul, Nat.cast_ofNat]
    rw [if_pos carry] at found
    split_ifs at found with high
    cases found
    refine ⟨Int.le_of_lt (Int.lt_of_lt_of_le (Int.lt_succ unit) (not_lt.1 high)), ?_⟩
    rw [magnitude, carry, double, zpow_add_one₀ two_ne_zero]
    ring
  · rw [if_neg carry] at found
    split_ifs at found with high
    cases found
    exact ⟨not_lt.1 high, rfl⟩

theorem ofUnits?_overflow {negative : Bool} {units : Nat} {unit : Int}
    (lost : ofUnits? negative units unit = none) :
    greatestExponent < unit ∨ unit = greatestExponent ∧ units = Nat.pow 2 53 := by
  delta ofUnits? at lost
  by_cases carry : units = Nat.pow 2 53
  · rw [if_pos carry] at lost
    split_ifs at lost with high
    rcases lt_or_eq_of_le (Int.lt_add_one_iff.1 high) with less | same
    · exact .inl less
    · exact .inr ⟨same.symm, carry⟩
  · rw [if_neg carry] at lost
    split_ifs at lost with high
    exact .inl high

theorem rounds_ofRatio? (negative : Bool) (positive : 0 < num) (positive' : 0 < den) :
    ∃ unit units, Rounds ((num : ℚ) / den) (ofRatio? negative num den) unit units := by
  obtain ⟨upper, lower⟩ := exponentOf_bounds positive positive'
  obtain ⟨d_pos, quotient⟩ := scaled_div num positive' (exponentOf num den)
  have result := fun n d => ofRatio?_eq (n := n) (d := d) negative (Nat.pos_iff_ne_zero.1 positive)
    (rfl : exponentOf num den = _)
  generalize exponentOf num den = unit at *
  generalize scaled num den unit = ratio at *
  obtain ⟨n, d⟩ := ratio
  rw [result n d rfl]
  have d_pos' : (0 : ℚ) < d := by exact_mod_cast d_pos
  refine ⟨unit, roundQuotient n d, {
    upper, lower, units_le := fun k above => ?_, le_units := fun k below => ?_
    finite := fun y => ofUnits?_finite, overflow := ofUnits?_overflow }⟩
  · apply roundQuotient_le d_pos
    rw [← div_le_iff₀ (by positivity), ← quotient, div_le_iff₀ d_pos'] at above
    exact_mod_cast above
  · apply le_roundQuotient d_pos
    rw [← le_div_iff₀ (by positivity), ← quotient, le_div_iff₀ d_pos'] at below
    exact_mod_cast below

def greatest : ℚ := (2 ^ 53 - 1) * 2 ^ greatestExponent

theorem two_pow_le_greatest {a : Nat} (small : a ≤ 1023) : (2 : ℚ) ^ a ≤ greatest := by
  calc (2 : ℚ) ^ a ≤ 2 ^ 1023 := by
        gcongr
        exact one_le_two
    _ = 2 ^ (52 : Int) * 2 ^ greatestExponent := by
      rw [← zpow_natCast, ← zpow_add₀ two_ne_zero]
      congr 1
    _ ≤ greatest := by
      unfold greatest
      gcongr
      norm_num

theorem ten_pow_le_greatest : (10 : ℚ) ^ 308 ≤ greatest := by
  have compare : 10 ^ 308 ≤ (2 ^ 53 - 1) * 2 ^ 971 := by decide +kernel
  have cast := (Nat.cast_le (α := ℚ)).2 compare
  rw [Nat.cast_mul, Nat.cast_sub (by decide)] at cast
  simp only [Nat.cast_pow, Nat.cast_ofNat, Nat.cast_one, ← zpow_natCast (2 : ℚ) 971] at cast
  exact cast

/-- Nothing up to the greatest finite number overflows. -/
theorem ofRatio?_ne_none (negative : Bool) (positive : 0 < den) (small : (num : ℚ) / den ≤ greatest) :
    ofRatio? negative num den ≠ none := by
  intro lost
  rcases Nat.eq_zero_or_pos num with zero | positive'
  · simp [ofRatio?, zero] at lost
  obtain ⟨unit, units, rounds⟩ := rounds_ofRatio? negative positive' positive
  rcases rounds.overflow lost with above | ⟨rfl, carry⟩
  · -- A greater unit means that the quotient itself is too large.
    rcases rounds.lower with least | large
    · rw [least] at above
      exact absurd above (by decide)
    · have greater : greatest < 2 ^ (52 + unit) := by
        calc greatest < 2 ^ (53 : Int) * 2 ^ greatestExponent := by
              unfold greatest
              gcongr
              norm_num
          _ = 2 ^ (52 + (greatestExponent + 1)) := by
              rw [← zpow_add₀ two_ne_zero]
              congr 1
          _ ≤ 2 ^ (52 + unit) := by
              gcongr
              · exact one_le_two
              · exact above
      exact absurd (greater.trans_le large) (not_lt.2 small)
  · have fits := rounds.units_le (Nat.pow 2 53 - 1) (by
      refine small.trans (le_of_eq ?_)
      unfold greatest
      norm_num)
    rw [carry] at fits
    exact absurd fits (by norm_num)

/-- What does not overflow is less than twice the greatest power of two. -/
theorem lt_of_ofRatio? {negative : Bool} {y : Binary64} (positive : 0 < den)
    (found : ofRatio? negative num den = some y) : (num : ℚ) / den < 2 ^ (1024 : Int) := by
  rcases Nat.eq_zero_or_pos num with rfl | positive'
  · rw [Nat.cast_zero, zero_div]
    positivity
  obtain ⟨unit, units, rounds⟩ := rounds_ofRatio? negative positive' positive
  refine rounds.upper.trans_le ?_
  have unit_le := (rounds.finite y found).1
  gcongr
  · exact one_le_two
  · unfold greatestExponent at unit_le
    omega

-- A power of two is a multiple of every smaller one.
theorem two_pow_multiple {a : Nat} {unit : Int} (le : unit ≤ a) :
    (2 : ℚ) ^ a = ((2 ^ (a - unit).toNat : Nat) : ℚ) * 2 ^ unit := by
  rw [Nat.cast_pow, Nat.cast_ofNat, ← zpow_natCast, ← zpow_natCast, ← zpow_add₀ two_ne_zero]
  congr 1
  omega

/-- Rounding goes up to a power of two at most that is not below. -/
theorem magnitude_le_of_ofRatio? {negative : Bool} {y : Binary64} (positive : 0 < den)
    (found : ofRatio? negative num den = some y) {a : Nat} (above : (num : ℚ) / den ≤ 2 ^ a) :
    y.magnitude ≤ 2 ^ a := by
  rcases Nat.eq_zero_or_pos num with rfl | positive'
  · cases found
    rw [magnitude_zero]
    positivity
  obtain ⟨unit, units, rounds⟩ := rounds_ofRatio? negative positive' positive
  have unit_le : unit ≤ a := by
    rcases rounds.lower with least | large
    · rw [least, leastExponent]
      omega
    · have order : (2 : ℚ) ^ (52 + unit) ≤ 2 ^ (a : Int) := by
        rw [zpow_natCast]
        exact large.trans above
      have order := (zpow_le_zpow_iff_right₀ one_lt_two).1 order
      omega
  rw [two_pow_multiple unit_le] at above ⊢
  rw [(rounds.finite y found).2]
  have fewer : (units : ℚ) ≤ (2 ^ (a - unit).toNat : Nat) := by
    exact_mod_cast rounds.units_le _ above
  gcongr

/-- Rounding goes down to a power of two at most that is not above. -/
theorem le_magnitude_of_ofRatio? {negative : Bool} {y : Binary64} (positive : 0 < den)
    (found : ofRatio? negative num den = some y) {b : Nat} (below : 2 ^ b ≤ (num : ℚ) / den) :
    2 ^ b ≤ y.magnitude := by
  have positive' : 0 < num := by
    rcases Nat.eq_zero_or_pos num with rfl | positive'
    · rw [Nat.cast_zero, zero_div] at below
      exact absurd below (not_le.2 (by positivity))
    · exact positive'
  obtain ⟨unit, units, rounds⟩ := rounds_ofRatio? negative positive' positive
  rw [(rounds.finite y found).2]
  rcases le_or_gt unit b with unit_le | less
  · rw [two_pow_multiple unit_le] at below ⊢
    have more : ((2 ^ (b - unit).toNat : Nat) : ℚ) ≤ units := by
      exact_mod_cast rounds.le_units _ below
    gcongr
  · -- One unit is more than the power already.
    have one : (1 : ℚ) ≤ units := by
      have one := rounds.le_units 1
      rw [Nat.cast_one, one_mul] at one
      rcases rounds.lower with least | large
      · rw [least, leastExponent] at less
        omega
      · have unit_le : (2 : ℚ) ^ unit ≤ 2 ^ (52 + unit) := by
          gcongr
          · exact one_le_two
          · omega
        exact_mod_cast one (unit_le.trans large)
    calc (2 : ℚ) ^ b = 2 ^ (b : Int) := (zpow_natCast _ _).symm
      _ ≤ 2 ^ unit := by
        gcongr
        exact one_le_two
      _ ≤ units * 2 ^ unit := le_mul_of_one_le_left (by positivity) one

end exponent

/-- A natural number is rounded by less than a factor of two, up to the greatest finite number. -/
theorem ofNat_bounds (negative : Bool) {n : Nat} (positive : 0 < n) (small : (n : ℚ) ≤ greatest) :
    (n : ℚ) ≤ 2 * (ofNat negative n).magnitude ∧ (ofNat negative n).magnitude ≤ 2 * n := by
  have fits : ofRatio? negative n 1 ≠ none := ofRatio?_ne_none negative Nat.one_pos (by simpa using small)
  obtain ⟨y, found⟩ := Option.ne_none_iff_exists'.1 fits
  have same : ofNat negative n = y := by rw [ofNat, found, Option.getD_some]
  rw [same]
  have lower : (2 : ℚ) ^ n.log2 ≤ n := by
    exact_mod_cast Nat.log2_self_le (Nat.pos_iff_ne_zero.1 positive)
  have upper : (n : ℚ) ≤ 2 ^ (n.log2 + 1) := by
    exact_mod_cast Nat.lt_log2_self.le
  have below := le_magnitude_of_ofRatio? Nat.one_pos found (by simpa using lower)
  have above := magnitude_le_of_ofRatio? Nat.one_pos found (by simpa using upper)
  rw [pow_succ] at above upper
  constructor <;> linarith

theorem powerOfTen_bounds {k : Nat} (small : k ≤ 308) :
    (10 : ℚ) ^ k ≤ 2 * (powerOfTen k).magnitude ∧ (powerOfTen k).magnitude ≤ 2 * 10 ^ k := by
  have cast : ((Nat.pow 10 k : Nat) : ℚ) = 10 ^ k := Nat.cast_pow 10 k
  have fits : ((Nat.pow 10 k : Nat) : ℚ) ≤ greatest := by
    calc ((Nat.pow 10 k : Nat) : ℚ) = 10 ^ k := cast
      _ ≤ 10 ^ 308 := by
        gcongr
        norm_num
      _ ≤ greatest := ten_pow_le_greatest
  rw [← cast]
  exact ofNat_bounds false (Nat.pow_pos (by decide)) fits

-- Each power of ten is rounded by less than a factor of two, so the next one is still twice as much.
theorem powerOfTen_twice {j k : Nat} (less : j < k) (small : k ≤ 308) :
    2 * (powerOfTen j).magnitude ≤ (powerOfTen k).magnitude := by
  have lower := (powerOfTen_bounds (less.le.trans small)).2
  have higher := (powerOfTen_bounds small).1
  have step : (10 : ℚ) ^ (j + 1) ≤ 10 ^ k := by
    gcongr
    · norm_num
    · exact less
  rw [pow_succ] at step
  have nonneg : (0 : ℚ) ≤ 10 ^ j := by positivity
  linarith

theorem one_le_powerOfTen {k : Nat} (positive : 0 < k) (small : k ≤ 308) :
    1 ≤ (powerOfTen k).magnitude := by
  have bound := (powerOfTen_bounds small).1
  have large : (10 : ℚ) ^ 1 ≤ 10 ^ k := by
    gcongr
    · norm_num
    · exact positive
  linarith

section products

variable {x y z : Binary64}

theorem product_ratio (x y : Binary64) : 0 < x.ratio.2 * y.ratio.2 ∧
    ((x.ratio.1 * y.ratio.1 : Nat) : ℚ) / (x.ratio.2 * y.ratio.2 : Nat)
      = x.magnitude * y.magnitude := by
  obtain ⟨positive, value⟩ := ratio_magnitude x
  obtain ⟨positive', value'⟩ := ratio_magnitude y
  refine ⟨Nat.mul_pos positive positive', ?_⟩
  rw [← value, ← value', div_mul_div_comm, Nat.cast_mul, Nat.cast_mul]

theorem times?_ne_none (fits : x.magnitude * y.magnitude ≤ greatest) : x.times? y ≠ none := by
  obtain ⟨positive, value⟩ := product_ratio x y
  exact ofRatio?_ne_none _ positive (value.trans_le fits)

theorem mul_lt_of_times? (found : x.times? y = some z) :
    x.magnitude * y.magnitude < 2 ^ (1024 : Int) := by
  obtain ⟨positive, value⟩ := product_ratio x y
  rw [← value]
  exact lt_of_ofRatio? positive found

theorem quotient_ratio (x : Binary64) (nonzero : 0 < y.magnitude) : 0 < x.ratio.2 * y.ratio.1 ∧
    ((x.ratio.1 * y.ratio.2 : Nat) : ℚ) / (x.ratio.2 * y.ratio.1 : Nat)
      = x.magnitude / y.magnitude := by
  obtain ⟨positive, value⟩ := ratio_magnitude x
  obtain ⟨positive', value'⟩ := ratio_magnitude y
  have nonzero' : 0 < y.ratio.1 := by
    rcases Nat.eq_zero_or_pos y.ratio.1 with zero | some
    · rw [← value', zero, Nat.cast_zero, zero_div] at nonzero
      exact absurd nonzero (lt_irrefl 0)
    · exact some
  refine ⟨Nat.mul_pos positive nonzero', ?_⟩
  rw [← value, ← value', div_div_div_eq, Nat.cast_mul, Nat.cast_mul]

/-- The quotient by a number that is not less than one is not greater than before. -/
theorem over?_bounded {a : Nat} (above : x.magnitude ≤ 2 ^ a) (small : a ≤ 1023)
    (divisor : 1 ≤ y.magnitude) : ∃ z, x.over? y = some z ∧ z.magnitude ≤ 2 ^ a := by
  obtain ⟨positive, value⟩ := quotient_ratio x (zero_lt_one.trans_le divisor)
  have less : x.magnitude / y.magnitude ≤ 2 ^ a :=
    (div_le_self (magnitude_nonneg x) divisor).trans above
  rw [← value] at less
  obtain ⟨z, found⟩ := Option.ne_none_iff_exists'.1 (ofRatio?_ne_none
    (x.negative != y.negative) positive (less.trans (two_pow_le_greatest small)))
  exact ⟨z, found, magnitude_le_of_ofRatio? positive found less⟩

theorem lowered_bounded {a : Nat} (small : a ≤ 1023) (steps : Nat) (above : x.magnitude ≤ 2 ^ a) :
    (lowered steps x).magnitude ≤ 2 ^ a := by
  have divisor : 1 ≤ (powerOfTen 308).magnitude := one_le_powerOfTen (by decide) (le_refl 308)
  induction steps generalizing x with
  | zero => exact above
  | succ steps ih =>
    rw [lowered]
    split_ifs
    · exact above
    · obtain ⟨z, found, bounded⟩ := over?_bounded above small divisor
      rw [found, Option.getD_some]
      exact ih bounded

end products

section scaling

variable {n : Nat} (negative : Bool)

theorem ofNat_zero : ofNat negative 0 = zero negative := rfl

theorem word_le_greatest (word : n < 2 ^ 64) : (n : ℚ) ≤ greatest := by
  have word : (n : ℚ) ≤ 2 ^ 64 := by exact_mod_cast word.le
  exact word.trans (two_pow_le_greatest (by decide))

/-- A word can be scaled down. -/
theorem scaledByTen?_of_negative (word : n < 2 ^ 64) {power : Int} (down : power < 0) :
    (ofNat negative n).scaledByTen? power ≠ none := by
  have above : (ofNat negative n).magnitude ≤ 2 ^ 65 := by
    rcases Nat.eq_zero_or_pos n with rfl | positive
    · rw [ofNat_zero, magnitude_zero]
      positivity
    · have bound := (ofNat_bounds negative positive (word_le_greatest word)).2
      have word : (n : ℚ) ≤ 2 ^ 64 := by exact_mod_cast word.le
      linarith
  have divisor : 1 ≤ (powerOfTen (power.natAbs - 308 * ((power.natAbs - 1) / 308))).magnitude :=
    one_le_powerOfTen (by omega) (by omega)
  rw [scaledByTen?, if_neg (not_le.2 down)]
  obtain ⟨z, found, -⟩ := over?_bounded
    (lowered_bounded (a := 65) (by decide) ((power.natAbs - 1) / 308) above) (by decide) divisor
  rw [found]
  exact Option.some_ne_none z

theorem pos_of_not_isZero (nonzero : ¬(ofNat negative n).isZero = true) : 0 < n := by
  rcases Nat.eq_zero_or_pos n with rfl | positive
  · exact absurd rfl nonzero
  · exact positive

/-- A word can be scaled if the product stays far below the greatest finite number. -/
theorem scaledByTen?_of_small (word : n < 2 ^ 64) {power : Int}
    (small : 0 ≤ power → n * 10 ^ power.natAbs ≤ 10 ^ 300) :
    (ofNat negative n).scaledByTen? power ≠ none := by
  rcases lt_or_ge power 0 with down | up
  · exact scaledByTen?_of_negative negative word down
  have small := small up
  rw [scaledByTen?, if_pos up]
  split_ifs with zero moderate
  · exact Option.some_ne_none _
  · apply times?_ne_none
    have bound := (ofNat_bounds negative (pos_of_not_isZero negative zero) (word_le_greatest word)).2
    have bound' := (powerOfTen_bounds (k := power.natAbs) (by omega)).2
    have small : (n : ℚ) * 10 ^ power.natAbs ≤ 10 ^ 300 := by exact_mod_cast small
    calc (ofNat negative n).magnitude * (powerOfTen power.natAbs).magnitude
        ≤ (2 * n) * (2 * 10 ^ power.natAbs) := by
          gcongr
          exact magnitude_nonneg _
      _ = 4 * (n * 10 ^ power.natAbs) := by ring
      _ ≤ 10 ^ 8 * 10 ^ 300 := by
        gcongr
        norm_num
      _ = 10 ^ 308 := (pow_add 10 8 300).symm
      _ ≤ greatest := ten_pow_le_greatest
  · have factor := Nat.le_mul_of_pos_left (10 ^ power.natAbs) (pos_of_not_isZero negative zero)
    have exponent := (Nat.pow_le_pow_iff_right (by decide)).1 (factor.trans small)
    exact absurd (by omega) moderate

/-- What can be scaled by one power of ten can be scaled by every smaller one. -/
theorem scaledByTen?_mono (word : n < 2 ^ 64) {power power' : Int} (le : power ≤ power')
    (fits : (ofNat negative n).scaledByTen? power' ≠ none) :
    (ofNat negative n).scaledByTen? power ≠ none := by
  rcases eq_or_lt_of_le le with rfl | less
  · exact fits
  rcases lt_or_ge power 0 with down | up
  · exact scaledByTen?_of_negative negative word down
  rw [scaledByTen?, if_pos (up.trans le)] at fits
  rw [scaledByTen?, if_pos up]
  by_cases zero : (ofNat negative n).isZero = true
  · rw [if_pos zero]
    exact Option.some_ne_none _
  rw [if_neg zero] at fits ⊢
  have moderate : power' ≤ 308 := by
    by_contra large
    rw [if_neg large] at fits
    exact fits rfl
  rw [if_pos moderate] at fits
  rw [if_pos (le.trans moderate)]
  obtain ⟨z, found⟩ := Option.ne_none_iff_exists'.1 fits
  apply times?_ne_none
  have twice := powerOfTen_twice (j := power.natAbs) (k := power'.natAbs) (by omega) (by omega)
  have bound := mul_lt_of_times? found
  have half : (ofNat negative n).magnitude * (powerOfTen power.natAbs).magnitude
      ≤ (ofNat negative n).magnitude * (powerOfTen power'.natAbs).magnitude / 2 := by
    have grown := mul_le_mul_of_nonneg_left twice (magnitude_nonneg (ofNat negative n))
    linarith
  have limit : (2 : ℚ) ^ (1024 : Int) = 2 * 2 ^ 1023 := by
    rw [← zpow_natCast, ← zpow_one_add₀ two_ne_zero]
    congr 1
  have limit' := two_pow_le_greatest (le_refl 1023)
  rw [limit] at bound
  generalize (2 : ℚ) ^ 1023 = halfLimit at bound limit'
  linarith

end scaling

end Binary64

end AccelControl
