import Mathlib.Data.List.TakeWhile
import AccelControl.Proofs.Json.Foresight

/-! Numbers, read in front of more text.

A number has no mark at its end. Where the text ends with it, more digits, a fraction or an exponent
may follow, and what was read of the number so far stays part of it.
-/

set_option autoImplicit false

namespace AccelControl.Json

variable {α β : Type}

/-- How the result for a text relates to the result for the text with `more` behind it, where a part
that touches the end of the text may grow. -/
inductive Continues (grows : α → α → Prop) (more : Bytes) :
    Except Fault (α × Bytes) → Except Fault (α × Bytes) → Prop where
  | read (a : α) {rest : Bytes} (before : rest ≠ []) :
      Continues grows more (.ok (a, rest)) (.ok (a, rest ++ more))
  | touching (a : α) {after : Except Fault (α × Bytes)}
      (later : ∀ b rest, after = .ok (b, rest) →
        grows a b ∧ (rest.length < more.length ∨ b = a ∧ rest = more)) :
      Continues grows more (.ok (a, [])) after
  | unfinished {after : Except Fault (α × Bytes)}
      (later : ∀ b rest, after = .ok (b, rest) → rest.length < more.length) :
      Continues grows more (.error .unfinished) after
  | refused : Continues grows more (.error .malformed) (.error .malformed)

theorem Continues.eq_of_read {grows : α → α → Prop} {more rest : Bytes} {a : α}
    {after : Except Fault (α × Bytes)} (continued : Continues grows more (.ok (a, rest)) after)
    (nonempty : rest ≠ []) : after = .ok (a, rest ++ more) := by
  cases continued with
  | read a before => rfl
  | touching a later => exact absurd rfl nonempty

theorem Continues.eq_of_refused {grows : α → α → Prop} {more : Bytes}
    {after : Except Fault (α × Bytes)}
    (continued : Continues grows more (.error .malformed) after) : after = .error .malformed := by
  cases continued
  rfl

theorem Continues.map {grows : α → α → Prop} {grows' : β → β → Prop} {more : Bytes}
    {before after : Except Fault (α × Bytes)} (f : α → β)
    (keeps : ∀ a b, grows a b → grows' (f a) (f b))
    (continued : Continues grows more before after) :
    Continues grows' more (before.map fun (a, s) => (f a, s))
      (after.map fun (a, s) => (f a, s)) := by
  cases continued with
  | read a nonempty => exact .read (f a) nonempty
  | touching a later =>
    apply Continues.touching (f a)
    intro b rest found
    obtain ⟨a', read, rfl⟩ := ok_of_map found
    obtain ⟨grown, within⟩ := later a' rest read
    exact ⟨keeps a a' grown, within.imp_right fun same => ⟨congrArg f same.1, same.2⟩⟩
  | unfinished later =>
    apply Continues.unfinished
    intro b rest found
    obtain ⟨a, read, -⟩ := ok_of_map found
    exact later a rest read
  | refused => exact .refused

theorem readDigits_cons {b : UInt8} {s : Bytes} (digit : isDigit b = true) :
    readDigits (b :: s) = .ok (b :: s.takeWhile isDigit, s.dropWhile isDigit) := by
  simp [readDigits, digit]

theorem consumes_readDigits : Consumes readDigits := by
  intro s digits rest found
  cases s with
  | nil => exact nomatch found
  | cons b s =>
    by_cases digit : isDigit b = true
    · rw [readDigits_cons digit] at found
      cases found
      have shorter : s.dropWhile isDigit <:+ s := List.dropWhile_suffix _
      exact ⟨shorter.trans (List.suffix_cons b s), Nat.lt_succ_of_le shorter.length_le⟩
    · simp [readDigits, digit] at found

-- New bytes begin with digits, or no digit is taken off them.
theorem digits_or_none (more : Bytes) : (more.dropWhile isDigit).length < more.length ∨
    more.takeWhile isDigit = [] ∧ more.dropWhile isDigit = more := by
  cases more with
  | nil => exact .inr ⟨rfl, rfl⟩
  | cons b s =>
    by_cases digit : isDigit b = true
    · left
      rw [List.dropWhile_cons_of_pos digit]
      exact Nat.lt_succ_of_le (List.dropWhile_suffix _).length_le
    · exact .inr ⟨List.takeWhile_cons_of_neg digit, List.dropWhile_cons_of_neg digit⟩

-- Digits that touch the end of the text go on with those in front of the new bytes.
theorem readDigits_append_touching {p digits : Bytes} (found : readDigits p = .ok (digits, []))
    (more : Bytes) : readDigits (p ++ more)
      = .ok (digits ++ more.takeWhile isDigit, more.dropWhile isDigit) := by
  cases p with
  | nil => exact nomatch found
  | cons b p =>
    by_cases digit : isDigit b = true
    · rw [readDigits_cons digit] at found
      obtain ⟨rfl, nothing⟩ := Prod.mk.inj (Except.ok.inj found)
      have all := List.dropWhile_eq_nil_iff.1 nothing
      rw [List.cons_append, readDigits_cons digit, List.takeWhile_append_of_pos all,
        List.dropWhile_append_of_pos all, List.takeWhile_eq_self_iff.2 all, List.cons_append]
    · simp [readDigits, digit] at found

theorem readDigits_append (p more : Bytes) :
    Continues (· <+: ·) more (readDigits p) (readDigits (p ++ more)) := by
  cases p with
  | nil => exact .unfinished fun digits rest found => (consumes_readDigits _ _ _ found).2
  | cons b p =>
    by_cases digit : isDigit b = true
    · by_cases all : ∀ c ∈ p, isDigit c = true
      · have whole : readDigits (b :: p) = .ok (b :: p, []) := by
          rw [readDigits_cons digit, List.dropWhile_eq_nil_iff.2 all,
            List.takeWhile_eq_self_iff.2 all]
        rw [readDigits_append_touching whole, whole]
        apply Continues.touching
        intro digits rest found
        cases found
        refine ⟨List.prefix_append (b :: p) _, (digits_or_none more).imp_right fun none => ?_⟩
        exact ⟨by rw [none.1, List.append_nil], none.2⟩
      · rw [List.cons_append, readDigits_cons digit, readDigits_cons digit]
        have behind : p.dropWhile isDigit ≠ [] := fun nothing =>
          all (List.dropWhile_eq_nil_iff.1 nothing)
        have short : (p.takeWhile isDigit).length ≠ p.length := fun same =>
          all (List.takeWhile_eq_self_iff.1 ((List.takeWhile_prefix isDigit).eq_of_length same))
        rw [List.takeWhile_append, List.dropWhile_append, if_neg short,
          if_neg (by simpa using behind)]
        exact .read _ behind
    · simp only [List.cons_append, readDigits, digit]
      exact .refused

def LeadingZero (digits : Bytes) : Prop := digits.head? = some 0x30 ∧ 1 < digits.length

theorem LeadingZero.of_prefix {digits digits' : Bytes} (zero : LeadingZero digits)
    (grown : digits <+: digits') : LeadingZero digits' := by
  obtain ⟨tail, rfl⟩ := grown
  constructor
  · rw [List.head?_append, zero.1]
    rfl
  · exact Nat.lt_of_lt_of_le zero.2 (List.prefix_append digits tail).length_le

theorem readIntegerPart_ok {s digits rest : Bytes} : readIntegerPart s = .ok (digits, rest) ↔
    readDigits s = .ok (digits, rest) ∧ ¬LeadingZero digits := by
  unfold readIntegerPart
  cases readDigits s with
  | error fault => simp
  | ok read =>
    obtain ⟨digits', rest'⟩ := read
    dsimp only
    split
    · next zero =>
      refine ⟨nofun, fun ⟨read, proper⟩ => ?_⟩
      cases read
      exact absurd zero proper
    · next proper =>
      refine ⟨fun found => ?_, fun ⟨read, _⟩ => read⟩
      cases found
      exact ⟨rfl, proper⟩

theorem consumes_readIntegerPart : Consumes readIntegerPart := fun s digits rest found =>
  consumes_readDigits s digits rest (readIntegerPart_ok.1 found).1

theorem readIntegerPart_append (p more : Bytes) :
    Continues (· <+: ·) more (readIntegerPart p) (readIntegerPart (p ++ more)) := by
  have continued := readDigits_append p more
  generalize before : readDigits p = x at continued
  generalize after : readDigits (p ++ more) = y at continued
  have again : ∀ r, readIntegerPart (p ++ more) = .ok r → y = .ok r ∧ ¬LeadingZero r.1 := by
    intro r found
    rw [← after]
    exact readIntegerPart_ok.1 found
  cases continued with
  | read digits nonempty =>
    simp only [readIntegerPart, before, after]
    split
    · exact .refused
    · exact .read digits nonempty
  | touching digits later =>
    simp only [readIntegerPart.eq_def p, before]
    split
    · next zero =>
      -- The digits only grow, so a zero in front does not come to stand alone.
      have zero' := LeadingZero.of_prefix zero (List.prefix_append _ (more.takeWhile isDigit))
      unfold LeadingZero at zero'
      simp only [readIntegerPart, readDigits_append_touching before, if_pos zero']
      exact .refused
    · apply Continues.touching
      intro digits' rest found
      exact later _ _ (again _ found).1
  | unfinished later =>
    simp only [readIntegerPart.eq_def p, before]
    apply Continues.unfinished
    intro digits rest found
    exact later _ _ (again _ found).1
  | refused =>
    simp only [readIntegerPart, before, after]
    exact .refused

-- Where no fraction is read, nothing is.
theorem readFraction_ok {s rest : Bytes} {fraction : Option Bytes}
    (found : readFraction s = .ok (fraction, rest)) :
    fraction = none ∧ rest = s ∨ rest <:+ s ∧ rest.length < s.length := by
  cases s with
  | nil => cases found; exact .inl ⟨rfl, rfl⟩
  | cons b s =>
    simp only [readFraction] at found
    split at found
    · right
      cases read : readDigits s with
      | error fault => rw [read] at found; exact nomatch found
      | ok result =>
        rw [read] at found
        cases found
        obtain ⟨suffix, shorter⟩ := consumes_readDigits _ _ _ read
        exact ⟨suffix.trans (List.suffix_cons b s), Nat.lt_succ_of_lt shorter⟩
    · cases found
      exact .inl ⟨rfl, rfl⟩

def FractionGrows (a b : Option Bytes) : Prop := ∃ digits digits', a = some digits ∧
  b = some digits' ∧ digits <+: digits'

theorem readFraction_append {p : Bytes} (nonempty : p ≠ []) (more : Bytes) :
    Continues FractionGrows more (readFraction p) (readFraction (p ++ more)) := by
  cases p with
  | nil => exact absurd rfl nonempty
  | cons b p =>
    simp only [List.cons_append, readFraction]
    split
    · exact (readDigits_append p more).map some fun _ _ grown => ⟨_, _, rfl, rfl, grown⟩
    · exact .read none (List.cons_ne_nil b p)

theorem readExponentSign_suffix (s : Bytes) : (readExponentSign s).2 <:+ s := by
  cases s with
  | nil => exact List.suffix_rfl
  | cons b s =>
    simp only [readExponentSign]
    split
    · exact List.suffix_cons b s
    · split
      · exact List.suffix_cons b s
      · exact List.suffix_rfl

theorem readExponent_ok {s rest : Bytes} {exponent : Option (Bool × Bytes)}
    (found : readExponent s = .ok (exponent, rest)) :
    exponent = none ∧ rest = s ∨ rest <:+ s ∧ rest.length < s.length := by
  cases s with
  | nil => cases found; exact .inl ⟨rfl, rfl⟩
  | cons b s =>
    simp only [readExponent] at found
    split at found
    · right
      cases read : readDigits (readExponentSign s).2 with
      | error fault => rw [read] at found; exact nomatch found
      | ok result =>
        rw [read] at found
        cases found
        obtain ⟨suffix, shorter⟩ := consumes_readDigits _ _ _ read
        have behindSign := readExponentSign_suffix s
        exact ⟨(suffix.trans behindSign).trans (List.suffix_cons b s),
          Nat.lt_succ_of_lt (Nat.lt_of_lt_of_le shorter behindSign.length_le)⟩
    · cases found
      exact .inl ⟨rfl, rfl⟩

def ExponentGrows (a b : Option (Bool × Bytes)) : Prop := ∃ negative digits digits',
  a = some (negative, digits) ∧ b = some (negative, digits') ∧ digits <+: digits'

theorem readExponentSign_append {p : Bytes} (nonempty : p ≠ []) (more : Bytes) :
    readExponentSign (p ++ more) = ((readExponentSign p).1, (readExponentSign p).2 ++ more) := by
  cases p with
  | nil => exact absurd rfl nonempty
  | cons b p =>
    simp only [List.cons_append, readExponentSign]
    split
    · rfl
    · split <;> rfl

theorem readExponent_append {p : Bytes} (nonempty : p ≠ []) (more : Bytes) :
    Continues ExponentGrows more (readExponent p) (readExponent (p ++ more)) := by
  cases p with
  | nil => exact absurd rfl nonempty
  | cons b p =>
    simp only [List.cons_append, readExponent]
    split
    · cases p with
      | nil =>
        apply Continues.unfinished
        intro exponent rest found
        cases read : readDigits (readExponentSign more).2 with
        | error fault => simp [read, Except.map] at found
        | ok result =>
          simp only [List.nil_append, read, Except.map, Except.ok.injEq, Prod.mk.injEq] at found
          obtain ⟨-, rfl⟩ := found
          exact Nat.lt_of_lt_of_le (consumes_readDigits _ _ _ read).2
            (readExponentSign_suffix more).length_le
      | cons c p =>
        rw [readExponentSign_append (List.cons_ne_nil c p)]
        have digits := readDigits_append (readExponentSign (c :: p)).2 more
        exact digits.map (fun digits => some ((readExponentSign (c :: p)).1, digits))
          fun _ _ grown => ⟨_, _, _, rfl, rfl, grown⟩
    · exact .read none (List.cons_ne_nil b p)

inductive NumberParts.Grows : NumberParts → NumberParts → Prop where
  | whole {negative : Bool} {whole whole' : Bytes} {fraction : Option Bytes}
      {exponent : Option (Bool × Bytes)} (grown : whole <+: whole') :
      Grows ⟨negative, whole, none, none⟩ ⟨negative, whole', fraction, exponent⟩
  | fraction {negative : Bool} {whole : Bytes} {fraction fraction' : Option Bytes}
      {exponent : Option (Bool × Bytes)} (grown : FractionGrows fraction fraction') :
      Grows ⟨negative, whole, fraction, none⟩ ⟨negative, whole, fraction', exponent⟩
  | exponent {negative : Bool} {whole : Bytes} {fraction : Option Bytes}
      {exponent exponent' : Option (Bool × Bytes)} (grown : ExponentGrows exponent exponent') :
      Grows ⟨negative, whole, fraction, exponent⟩ ⟨negative, whole, fraction, exponent'⟩

theorem readMagnitude_ok {negative : Bool} {s rest : Bytes} {parts : NumberParts}
    (found : readMagnitude negative s = .ok (parts, rest)) :
    ∃ s₁ s₂, readIntegerPart s = .ok (parts.whole, s₁) ∧ readFraction s₁ = .ok (parts.fraction, s₂) ∧
      readExponent s₂ = .ok (parts.exponent, rest) ∧ parts.negative = negative := by
  simp only [readMagnitude] at found
  split at found
  · exact nomatch found
  · next whole s₁ first =>
    split at found
    · exact nomatch found
    · next fraction s₂ second =>
      split at found
      · exact nomatch found
      · next exponent s₃ third =>
        cases found
        exact ⟨s₁, s₂, first, second, third, rfl⟩

theorem readFraction_suffix {s rest : Bytes} {fraction : Option Bytes}
    (found : readFraction s = .ok (fraction, rest)) : rest <:+ s := by
  rcases readFraction_ok found with ⟨-, rfl⟩ | ⟨suffix, -⟩
  · exact List.suffix_rfl
  · exact suffix

theorem readExponent_suffix {s rest : Bytes} {exponent : Option (Bool × Bytes)}
    (found : readExponent s = .ok (exponent, rest)) : rest <:+ s := by
  rcases readExponent_ok found with ⟨-, rfl⟩ | ⟨suffix, -⟩
  · exact List.suffix_rfl
  · exact suffix

theorem consumes_readMagnitude (negative : Bool) : Consumes (readMagnitude negative) := by
  intro s parts rest found
  obtain ⟨s₁, s₂, whole, fraction, exponent, -⟩ := readMagnitude_ok found
  obtain ⟨suffix, shorter⟩ := consumes_readIntegerPart _ _ _ whole
  have behind := (readExponent_suffix exponent).trans (readFraction_suffix fraction)
  exact ⟨behind.trans suffix, Nat.lt_of_le_of_lt behind.length_le shorter⟩

theorem readSign_suffix (s : Bytes) : (readSign s).2 <:+ s := by
  cases s with
  | nil => exact List.suffix_rfl
  | cons b s =>
    simp only [readSign]
    split
    · exact List.suffix_cons b s
    · exact List.suffix_rfl

theorem readSign_append {p : Bytes} (nonempty : p ≠ []) (more : Bytes) :
    readSign (p ++ more) = ((readSign p).1, (readSign p).2 ++ more) := by
  cases p with
  | nil => exact absurd rfl nonempty
  | cons b p =>
    simp only [List.cons_append, readSign]
    split <;> rfl

theorem consumes_readNumberParts : Consumes readNumberParts := by
  intro s parts rest found
  obtain ⟨suffix, shorter⟩ := consumes_readMagnitude _ _ _ _ found
  exact ⟨suffix.trans (readSign_suffix s),
    Nat.lt_of_lt_of_le shorter (readSign_suffix s).length_le⟩

theorem readMagnitude_ok_behind {negative : Bool} {s s₁ rest whole : Bytes} {parts : NumberParts}
    (first : readIntegerPart s = .ok (whole, s₁))
    (found : readMagnitude negative s = .ok (parts, rest)) :
    ∃ fraction exponent s₂, readFraction s₁ = .ok (fraction, s₂) ∧
      readExponent s₂ = .ok (exponent, rest) ∧ parts = ⟨negative, whole, fraction, exponent⟩ := by
  obtain ⟨s₁', s₂, first', second, third, same⟩ := readMagnitude_ok found
  obtain ⟨negative', whole', fraction, exponent⟩ := parts
  cases same
  cases first.symm.trans first'
  exact ⟨fraction, exponent, s₂, second, third, rfl⟩

theorem readMagnitude_of_fraction (negative : Bool) {s s₁ s₂ whole : Bytes} {fraction : Option Bytes}
    (first : readIntegerPart s = .ok (whole, s₁)) (second : readFraction s₁ = .ok (fraction, s₂)) :
    readMagnitude negative s = (readExponent s₂).map fun (exponent, rest) =>
      (⟨negative, whole, fraction, exponent⟩, rest) := by
  simp only [readMagnitude, first, second]
  cases readExponent s₂ with
  | error fault => rfl
  | ok read => rfl

-- The end of a number, where its digits in front of the point do not touch the end of the text.
theorem readMagnitude_append_fraction (negative : Bool) {p s more whole : Bytes}
    (before : readIntegerPart p = .ok (whole, s))
    (after : readIntegerPart (p ++ more) = .ok (whole, s ++ more)) (nonempty : s ≠ []) :
    Continues NumberParts.Grows more (readMagnitude negative p)
      (readMagnitude negative (p ++ more)) := by
  have continued := readFraction_append nonempty more
  generalize fractionBefore : readFraction s = x at continued
  generalize fractionAfter : readFraction (s ++ more) = y at continued
  cases continued with
  | @read fraction s' nonempty =>
    rw [readMagnitude_of_fraction negative before fractionBefore,
      readMagnitude_of_fraction negative after fractionAfter]
    exact (readExponent_append nonempty more).map _ fun _ _ grown => .exponent grown
  | touching fraction later =>
    have result : readMagnitude negative p = .ok (⟨negative, whole, fraction, none⟩, []) := by
      simp only [readMagnitude, before, fractionBefore]
      rfl
    rw [result]
    apply Continues.touching
    intro parts rest found
    obtain ⟨fraction', exponent, s₂, second, third, rfl⟩ := readMagnitude_ok_behind after found
    obtain ⟨grown, within⟩ := later _ _ (fractionAfter.symm.trans second)
    refine ⟨.fraction grown, ?_⟩
    -- Whether there is an exponent is left to the new bytes alone.
    rcases readExponent_ok third with ⟨noExponent, same⟩ | ⟨-, shorter⟩
    · rw [noExponent, same]
      exact within.imp_right fun unchanged => ⟨by rw [unchanged.1], unchanged.2⟩
    · rcases within with within | ⟨-, rfl⟩
      · exact .inl (Nat.lt_trans shorter within)
      · exact .inl shorter
  | unfinished later =>
    have result : readMagnitude negative p = .error .unfinished := by
      simp only [readMagnitude, before, fractionBefore]
    rw [result]
    apply Continues.unfinished
    intro parts rest found
    obtain ⟨fraction, exponent, s₂, second, third, -⟩ := readMagnitude_ok_behind after found
    exact Nat.lt_of_le_of_lt (readExponent_suffix third).length_le
      (later _ _ (fractionAfter.symm.trans second))
  | refused =>
    simp only [readMagnitude, before, after, fractionBefore, fractionAfter]
    exact .refused

theorem readMagnitude_append (negative : Bool) (p more : Bytes) :
    Continues NumberParts.Grows more (readMagnitude negative p)
      (readMagnitude negative (p ++ more)) := by
  have continued := readIntegerPart_append p more
  generalize before : readIntegerPart p = x at continued
  generalize after : readIntegerPart (p ++ more) = y at continued
  cases continued with
  | read whole nonempty => exact readMagnitude_append_fraction negative before after nonempty
  | touching whole later =>
    have result : readMagnitude negative p = .ok (⟨negative, whole, none, none⟩, []) := by
      simp only [readMagnitude, before]
      rfl
    rw [result]
    apply Continues.touching
    intro parts rest found
    obtain ⟨s₁, s₂, first, second, third, rfl⟩ := readMagnitude_ok found
    obtain ⟨grown, within⟩ := later _ _ (after.symm.trans first)
    refine ⟨.whole grown, ?_⟩
    have behind := (readExponent_suffix third).trans (readFraction_suffix second)
    rcases within with within | ⟨same, rfl⟩
    · exact .inl (Nat.lt_of_le_of_lt behind.length_le within)
    · rcases readFraction_ok second with ⟨noFraction, rfl⟩ | ⟨-, shorter⟩
      · rcases readExponent_ok third with ⟨noExponent, rfl⟩ | ⟨-, shorter⟩
        · refine .inr ⟨?_, rfl⟩
          rw [← same, ← noFraction, ← noExponent]
        · exact .inl shorter
      · exact .inl (Nat.lt_of_le_of_lt (readExponent_suffix third).length_le shorter)
  | unfinished later =>
    have result : readMagnitude negative p = .error .unfinished := by
      simp only [readMagnitude, before]
    rw [result]
    apply Continues.unfinished
    intro parts rest found
    obtain ⟨s₁, s₂, first, second, third, rfl⟩ := readMagnitude_ok found
    have behind := (readExponent_suffix third).trans (readFraction_suffix second)
    exact Nat.lt_of_le_of_lt behind.length_le (later _ _ (after.symm.trans first))
  | refused =>
    simp only [readMagnitude, before, after]
    exact .refused

theorem readNumberParts_append (p more : Bytes) :
    Continues NumberParts.Grows more (readNumberParts p) (readNumberParts (p ++ more)) := by
  cases p with
  | nil => exact .unfinished fun parts rest found => (consumes_readNumberParts _ _ _ found).2
  | cons b p =>
    simp only [readNumberParts, readSign_append (List.cons_ne_nil b p)]
    exact readMagnitude_append _ _ more

theorem readNumber_ok {s rest : Bytes} {n : Number} :
    readNumber s = .ok (n, rest) ↔
      ∃ parts, readNumberParts s = .ok (parts, rest) ∧ parts.number? = some n := by
  simp only [readNumber]
  cases readNumberParts s with
  | error fault => simp
  | ok read =>
    obtain ⟨parts, s⟩ := read
    dsimp only
    cases number : parts.number? with
    | none =>
      constructor
      · intro found
        exact nomatch found
      · rintro ⟨parts', read, number'⟩
        cases read
        exact nomatch number.symm.trans number'
    | some m =>
      constructor
      · intro found
        cases found
        exact ⟨parts, rfl, number⟩
      · rintro ⟨parts', read, number'⟩
        cases read
        cases number.symm.trans number'
        rfl

theorem consumes_readNumber : Consumes readNumber := by
  intro s n rest found
  obtain ⟨parts, read, -⟩ := readNumber_ok.1 found
  exact consumes_readNumberParts _ _ _ read

/-- A number in front of more text is read again; at the end of the text it may go on. -/
theorem readNumber_foretells (p more : Bytes) :
    Foretells False False more (readNumber p) (readNumber (p ++ more)) := by
  have continued := readNumberParts_append p more
  generalize before : readNumberParts p = x at continued
  generalize after : readNumberParts (p ++ more) = y at continued
  cases continued with
  | @read parts rest nonempty =>
    simp only [readNumber, before, after]
    cases parts.number? with
    | none => exact .same_error .malformed
    | some n => exact .read n rest
  | touching parts later =>
    simp only [readNumber, before]
    cases number : parts.number? with
    | none =>
      refine .failed fun n rest found => ⟨?_, False.elim⟩
      obtain ⟨parts', read, number'⟩ := readNumber_ok.1 found
      rcases (later _ _ (after.symm.trans read)).2 with within | ⟨rfl, -⟩
      · exact within
      · rw [number] at number'
        exact nomatch number'
    | some n =>
      apply Foretells.touching n not_false
      intro m rest found
      obtain ⟨parts', read, number'⟩ := readNumber_ok.1 found
      refine (later _ _ (after.symm.trans read)).2.imp_right fun same => ⟨?_, same.2⟩
      rw [same.1, number] at number'
      exact (Option.some.inj number').symm
  | unfinished later =>
    simp only [readNumber, before]
    refine .failed fun n rest found => ⟨?_, False.elim⟩
    obtain ⟨parts', read, -⟩ := readNumber_ok.1 found
    exact later _ _ (after.symm.trans read)
  | refused =>
    simp only [readNumber, before, after]
    exact .same_error .malformed

def readInteger : Reader Number := fun s =>
  match readNumber s with
  | .ok (.float _, _) => .error .malformed
  | result => result

theorem readInteger_ok {s rest : Bytes} {n : Number} :
    readInteger s = .ok (n, rest) ↔ readNumber s = .ok (n, rest) ∧ ∃ i, n = .integer i := by
  simp only [readInteger]
  cases readNumber s with
  | error fault => simp
  | ok read =>
    obtain ⟨m, s⟩ := read
    cases m with
    | integer i =>
      simp only [Except.ok.injEq, Prod.mk.injEq]
      exact ⟨fun same => ⟨same, i, same.1.symm⟩, fun same => same.1⟩
    | float x =>
      simp only [reduceCtorEq, Except.ok.injEq, Prod.mk.injEq, false_iff, not_and, not_exists]
      rintro ⟨rfl, -⟩ i same
      exact nomatch same

-- Digits that all fit into a word leave none unread at any point.
theorem unread_of_collect_append {n : Nat} {front back : Bytes}
    (all : (collect n (front ++ back)).2.2 = 0) : (collect n front).2.2 = 0 := by
  induction front generalizing n with
  | nil => rfl
  | cons b front ih =>
    simp only [List.cons_append, collect] at all ⊢
    split
    · next fits =>
      rw [if_pos fits] at all
      exact ih all
    · next exceeds =>
      rw [if_neg exceeds] at all
      exact absurd all (Nat.succ_ne_zero _)

-- An integer is written without a fraction and without an exponent, in digits that fit a word.
theorem NumberParts.number?_integer {parts : NumberParts} {i : Integer}
    (number : parts.number? = some (.integer i)) :
    (collect 0 parts.whole).2.2 = 0 ∧ parts.fraction = none ∧ parts.exponent = none := by
  simp only [NumberParts.number?] at number
  split at number
  · assumption
  · simp at number

-- Whatever begins an integer is a number.
theorem NumberParts.Grows.number? {parts parts' : NumberParts} (grown : parts.Grows parts')
    {i : Integer} (number : parts'.number? = some (.integer i)) : ∃ n, parts.number? = some n := by
  obtain ⟨fits, noFraction, noExponent⟩ := number?_integer number
  cases grown with
  | whole grown =>
    obtain ⟨tail, rfl⟩ := grown
    exact ⟨_, if_pos ⟨unread_of_collect_append fits, rfl, rfl⟩⟩
  | fraction grown =>
    obtain ⟨_, _, -, some', -⟩ := grown
    exact nomatch some'.symm.trans noFraction
  | exponent grown =>
    obtain ⟨_, _, _, -, some', -⟩ := grown
    exact nomatch some'.symm.trans noExponent

-- Every beginning of a number that the reader accepts is a number.
def Gradual (number : Reader Number) : Prop := ∀ s n rest, number s = .ok (n, rest) →
  ∃ parts, readNumberParts s = .ok (parts, rest) ∧ parts.number? = some n ∧
    ∀ begun : NumberParts, begun.Grows parts → ∃ m, begun.number? = some m

theorem Gradual.consumes {number : Reader Number} (gradual : Gradual number) : Consumes number := by
  intro s n rest found
  obtain ⟨parts, read, -⟩ := gradual s n rest found
  exact consumes_readNumberParts _ _ _ read

theorem Gradual.foretells {number : Reader Number} (gradual : Gradual number) (p more : Bytes) :
    Foretells False True more (readNumber p) (number (p ++ more)) := by
  -- Only what the other reader accepts has to be looked at.
  cases after : number (p ++ more) with
  | error fault => exact .lost trivial fun r found => nomatch found
  | ok read =>
    obtain ⟨n, rest⟩ := read
    obtain ⟨parts', read, number', begins⟩ := gradual _ _ _ after
    have continued := readNumberParts_append p more
    rw [read] at continued
    generalize before : readNumberParts p = x at continued
    cases continued with
    | @read _ rest nonempty =>
      simp only [readNumber, before, number']
      exact .read _ rest
    | touching parts later =>
      obtain ⟨grown, within⟩ := later _ _ rfl
      obtain ⟨n, number⟩ := begins parts grown
      simp only [readNumber, before, number]
      apply Foretells.touching n not_false
      intro m rest' same
      cases same
      refine within.imp_right fun same => ⟨?_, same.2⟩
      rw [same.1, number] at number'
      exact (Option.some.inj number').symm
    | unfinished later =>
      simp only [readNumber, before]
      refine .failed fun m rest' same => ⟨?_, fun _ => rfl⟩
      cases same
      exact later _ _ rfl

theorem gradual_readInteger : Gradual readInteger := by
  intro s n rest found
  obtain ⟨read, i, rfl⟩ := readInteger_ok.1 found
  obtain ⟨parts, read, number⟩ := readNumber_ok.1 read
  exact ⟨parts, read, number, fun begun grown => grown.number? number⟩

end AccelControl.Json
