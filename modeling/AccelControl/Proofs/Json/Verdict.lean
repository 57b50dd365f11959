import AccelControl.Proofs.Json.Foresight

/-! What a reader makes of a text settles what it makes of every longer text.

A value in front of other bytes is read again, and a text that is refused is refused for good,
whatever follows. A text that has come to its end too early promises nothing. The exception is a
number that is too large so far: it is refused although an exponent below zero may still follow.
-/

set_option autoImplicit false

namespace AccelControl.Json

variable {α β : Type}

/-- A number that is too large so far. More bytes can bring it into range unless it has an exponent
above zero, which could only grow. -/
def Oversized (number : Bytes) : Prop :=
  ∃ parts, readNumberParts number = .ok (parts, []) ∧ parts.number? = none ∧
    ∀ digits, parts.exponent ≠ some (false, digits)

def ReachesEnd (result : Except Fault (α × Bytes)) : Prop :=
  result = .error .unfinished ∨ ∃ a, result = .ok (a, [])

/-- How the result for a text, `before`, settles the results for all longer texts: `after` has the
result for the text with more behind it. -/
inductive Settles (text : Bytes) :
    Except Fault (α × Bytes) → (Bytes → Except Fault (α × Bytes)) → Prop where
  | read (a : α) {rest : Bytes} {after : Bytes → Except Fault (α × Bytes)} (within : rest <:+ text)
      (later : ∀ more, after more = .ok (a, rest ++ more)) : Settles text (.ok (a, rest)) after
  /-- A value that reaches the end of the text, and may go on. -/
  | touching (a : α) {after : Bytes → Except Fault (α × Bytes)} : Settles text (.ok (a, [])) after
  | unfinished {after : Bytes → Except Fault (α × Bytes)} : Settles text (.error .unfinished) after
  /-- The text ends in a number that is too large so far, and would do with one that is not. -/
  | oversized {number : Bytes} {after : Bytes → Except Fault (α × Bytes)} (ends : number <:+ text)
      (tooLarge : Oversized number)
      (mends : ∀ more n, readNumber (number ++ more) = .ok (n, []) → ReachesEnd (after more)) :
      Settles text (.error .malformed) after
  | refused {after : Bytes → Except Fault (α × Bytes)}
      (final : ∀ more, after more = .error .malformed) : Settles text (.error .malformed) after

namespace ReachesEnd

theorem map {result : Except Fault (α × Bytes)} (f : α → β) (reaches : ReachesEnd result) :
    ReachesEnd (result.map fun (a, s) => (f a, s)) := by
  rcases reaches with rfl | ⟨a, rfl⟩
  · exact .inl rfl
  · exact .inr ⟨f a, rfl⟩

/-- Where one reader comes to the end of the text, another one behind it needs more. -/
theorem andThen {first : Except Fault (α × Bytes)} {second : α → Reader β}
    (reaches : ReachesEnd first) (needs : ∀ a, second a [] = .error .unfinished) :
    Json.andThen first second = .error .unfinished := by
  rcases reaches with rfl | ⟨a, rfl⟩
  · rfl
  · exact needs a

end ReachesEnd

namespace Settles

variable {text : Bytes} {before : Except Fault (α × Bytes)}
variable {after : Bytes → Except Fault (α × Bytes)}

/-- A reader for which the end of the text makes no difference once it has come to a result. -/
theorem of_each (each : ∀ more,
      (∃ a rest, before = .ok (a, rest) ∧ rest <:+ text ∧ after more = .ok (a, rest ++ more)) ∨
      (before = .error .malformed ∧ after more = .error .malformed) ∨
      before = .error .unfinished) : Settles text before after := by
  rcases each [] with ⟨a, rest, rfl, within, -⟩ | ⟨rfl, -⟩ | rfl
  · refine .read a within fun more => ?_
    rcases each more with ⟨a', rest', same, -, later⟩ | ⟨failed, -⟩ | failed
    · cases same
      exact later
    · exact nomatch failed
    · exact nomatch failed
  · refine .refused fun more => ?_
    rcases each more with ⟨_, _, failed, -⟩ | ⟨-, final⟩ | failed
    · exact nomatch failed
    · exact final
    · exact nomatch failed
  · exact .unfinished

/-- What is settled of the end of a text is settled of all of it. -/
theorem extend {whole : Bytes} (within : text <:+ whole) (settled : Settles text before after) :
    Settles whole before after := by
  cases settled with
  | read a suffix later => exact .read a (suffix.trans within) later
  | touching a => exact .touching a
  | unfinished => exact .unfinished
  | oversized ends tooLarge mends => exact .oversized (ends.trans within) tooLarge mends
  | refused final => exact .refused final

theorem map (f : α → β) (settled : Settles text before after) :
    Settles text (before.map fun (a, s) => (f a, s))
      fun more => (after more).map fun (a, s) => (f a, s) := by
  cases settled with
  | read a within later => exact .read (f a) within fun more => by rw [later]; rfl
  | touching a => exact .touching (f a)
  | unfinished => exact .unfinished
  | oversized ends tooLarge mends =>
    exact .oversized ends tooLarge fun more n found => (mends more n found).map f
  | refused final => exact .refused fun more => by rw [final]; rfl

/-- Two readers in a row, of which the second one may know how long the text is. At the end of the
text it needs more. -/
theorem andThen {second : α → Reader β} {second' : Bytes → α → Reader β}
    (first : Settles text before after)
    (behind : ∀ a rest, before = .ok (a, rest) →
      Settles rest (second a rest) fun more => second' more a (rest ++ more))
    (needs : ∀ a, second a [] = .error .unfinished)
    (needs' : ∀ more a, second' more a [] = .error .unfinished) :
    Settles text (Json.andThen before second)
      fun more => Json.andThen (after more) (second' more) := by
  cases first with
  | @read a rest _ within later =>
    have later : (fun more => Json.andThen (after more) (second' more))
        = fun more => second' more a (rest ++ more) := by
      funext more
      rw [later]
      rfl
    rw [later]
    exact (behind a rest rfl).extend within
  | touching a =>
    rw [show Json.andThen (.ok (a, [])) second = .error .unfinished from needs a]
    exact .unfinished
  | unfinished => exact .unfinished
  | oversized ends tooLarge mends =>
    refine .oversized ends tooLarge fun more n found => .inl ?_
    exact (mends more n found).andThen (needs' more)
  | refused final => exact .refused fun more => by rw [final]; rfl

/-- Readers that choose between two first readers, and choose alike. -/
theorem andThen_ite {c : Prop} [Decidable c] {first first' : Except Fault (α × Bytes)}
    {later later' : Bytes → Except Fault (α × Bytes)} {second : α → Reader β}
    {second' : Bytes → α → Reader β}
    (yes : c → Settles text (Json.andThen first second)
      fun more => Json.andThen (later more) (second' more))
    (no : ¬c → Settles text (Json.andThen first' second)
      fun more => Json.andThen (later' more) (second' more)) :
    Settles text (Json.andThen (if c then first else first') second)
      fun more => Json.andThen (if c then later more else later' more) (second' more) := by
  by_cases choice : c
  · simpa only [if_pos choice] using yes choice
  · simpa only [if_neg choice] using no choice

end Settles

end AccelControl.Json
