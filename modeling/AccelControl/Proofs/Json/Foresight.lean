import AccelControl.Json.ValueReader

/-! What a reader makes of a text foretells what it makes of the same text with more behind it.

A value read in front of other bytes is read again. A reader that stops short goes on into the new
bytes. Only the end of the text can make a difference to a value that touches it, which is the case
of numbers.
-/

set_option autoImplicit false

namespace AccelControl.Json

variable {α β : Type}

/-- Read with one reader and then with another, which may depend on what the first has read. -/
def andThen (first : Except Fault (α × Bytes)) (second : α → Reader β) : Except Fault (β × Bytes) :=
  match first with
  | .error fault => .error fault
  | .ok (a, s) => second a s

def Consumes (read : Reader α) : Prop :=
  ∀ (s : Bytes) (a : α) (rest : Bytes), read s = .ok (a, rest) → rest <:+ s ∧ rest.length < s.length

theorem ok_of_map {result : Except Fault (α × Bytes)} {f : α → β} {b : β} {rest : Bytes}
    (found : (result.map fun (a, s) => (f a, s)) = .ok (b, rest)) :
    ∃ a, result = .ok (a, rest) ∧ f a = b := by
  cases result with
  | error fault => exact nomatch found
  | ok read =>
    cases found
    exact ⟨read.1, rfl, rfl⟩

theorem ok_of_andThen {first : Except Fault (α × Bytes)} {second : α → Reader β} {b : β}
    {rest : Bytes} (found : andThen first second = .ok (b, rest)) :
    ∃ a s, first = .ok (a, s) ∧ second a s = .ok (b, rest) := by
  cases first with
  | error fault => exact nomatch found
  | ok read => exact ⟨read.1, read.2, rfl, found⟩

theorem consumes_map {read : Reader α} (consumes : Consumes read) (f : α → β) :
    Consumes fun s => (read s).map fun (a, s) => (f a, s) := by
  intro s b rest found
  obtain ⟨a, result, -⟩ := ok_of_map found
  exact consumes s a rest result

theorem consumes_andThen {first : Reader α} {second : α → Reader β} (consumes : Consumes first)
    (consumes' : ∀ a, Consumes (second a)) : Consumes fun s => andThen (first s) second := by
  intro s b rest found
  obtain ⟨a, s', read, behind⟩ := ok_of_andThen found
  obtain ⟨suffix, shorter⟩ := consumes s a s' read
  obtain ⟨suffix', shorter'⟩ := consumes' a s' b rest behind
  exact ⟨suffix'.trans suffix, Nat.lt_trans shorter' shorter⟩

/-- How the result for a text, `before`, relates to the result for the text with `more` behind it,
`after`. What is `closed` marks its own end. The reader of the longer text may be more `strict` than
the other one; if it is, whatever it accepts was not refused by the other. -/
inductive Foretells (closed strict : Prop) (more : Bytes) :
    Except Fault (α × Bytes) → Except Fault (α × Bytes) → Prop where
  | read (a : α) (rest : Bytes) : Foretells closed strict more (.ok (a, rest)) (.ok (a, rest ++ more))
  /-- A value that reaches the end of the text, and may go on. -/
  | touching (a : α) {after : Except Fault (α × Bytes)} (unmarked : ¬closed)
      (later : ∀ b rest, after = .ok (b, rest) →
        rest.length < more.length ∨ b = a ∧ rest = more) :
      Foretells closed strict more (.ok (a, [])) after
  | failed {fault : Fault} {after : Except Fault (α × Bytes)}
      (later : ∀ b rest, after = .ok (b, rest) →
        rest.length < more.length ∧ (strict → fault = .unfinished)) :
      Foretells closed strict more (.error fault) after
  | lost {before after : Except Fault (α × Bytes)} (stricter : strict)
      (later : ∀ r, after ≠ .ok r) : Foretells closed strict more before after

theorem skipSpace_suffix (s : Bytes) : skipSpace s <:+ s := List.dropWhile_suffix _

theorem skipSpace_append_of_nil {p : Bytes} (blank : skipSpace p = []) (more : Bytes) :
    skipSpace (p ++ more) = skipSpace more := by
  rw [skipSpace, List.dropWhile_append, if_pos (by simpa [skipSpace] using blank)]
  rfl

theorem skipSpace_append_of_cons {p s : Bytes} {b : UInt8} (found : skipSpace p = b :: s)
    (more : Bytes) : skipSpace (p ++ more) = b :: (s ++ more) := by
  have stops : ¬(p.dropWhile isSpace).isEmpty = true := by
    rw [show p.dropWhile isSpace = b :: s from found]
    simp
  rw [skipSpace, List.dropWhile_append, if_neg stops, show p.dropWhile isSpace = b :: s from found]
  rfl

namespace Foretells

variable {closed strict : Prop} {more : Bytes}

theorem same_error (fault : Fault) :
    Foretells (α := α) closed strict more (.error fault) (.error fault) :=
  .failed fun _ _ found => nomatch found

/-- What is read in a longer text was read before, or more of the text was needed. -/
theorem of_ok {before : Except Fault (α × Bytes)} {b : α} {rest : Bytes} (marked : closed)
    (foretold : Foretells closed strict more before (.ok (b, rest))) :
    (∃ front, before = .ok (b, front) ∧ rest = front ++ more) ∨
      rest.length < more.length ∧ ∃ fault, before = .error fault ∧ (strict → fault = .unfinished) := by
  cases foretold with
  | read a front => exact .inl ⟨front, rfl, rfl⟩
  | touching a unmarked later => exact absurd marked unmarked
  | failed later => exact .inr ⟨(later b rest rfl).1, _, rfl, (later b rest rfl).2⟩
  | lost stricter later => exact absurd rfl (later _)

/-- A value that marks its own end is read again in front of more. -/
theorem ok_of_ok {after : Except Fault (α × Bytes)} {a : α} {rest : Bytes} (marked : closed)
    (lenient : ¬strict) (foretold : Foretells closed strict more (.ok (a, rest)) after) :
    after = .ok (a, rest ++ more) := by
  cases foretold with
  | read a front => rfl
  | touching a unmarked later => exact absurd marked unmarked
  | lost stricter later => exact absurd stricter lenient

/-- A value that is read in front of `more` is read without it. -/
theorem ok_of_cut {before : Except Fault (α × Bytes)} {a : α} (lenient : ¬strict)
    (foretold : Foretells closed strict more before (.ok (a, more))) : before = .ok (a, []) := by
  generalize found : Except.ok (a, more) = after at foretold
  cases foretold with
  | read b rest =>
    obtain ⟨rfl, same⟩ := Prod.mk.inj (Except.ok.inj found)
    rw [List.self_eq_append_left.1 same]
  | touching b unmarked later =>
    rcases later a more found.symm with shorter | ⟨rfl, -⟩
    · exact absurd shorter (Nat.lt_irrefl _)
    · rfl
  | failed later => exact absurd (later a more found.symm).1 (Nat.lt_irrefl _)
  | lost stricter later => exact absurd stricter lenient

/-- With nothing more behind the text, what is read afterwards was read before. -/
theorem ok_of_same {before : Except Fault (α × Bytes)} {a : α} {rest : Bytes}
    (foretold : Foretells closed strict [] before (.ok (a, rest))) : before = .ok (a, rest) := by
  generalize found : Except.ok (a, rest) = after at foretold ⊢
  cases foretold with
  | read b front => rw [List.append_nil]
  | touching b unmarked later =>
    rcases later a rest found.symm with shorter | ⟨rfl, rfl⟩
    · exact absurd shorter (Nat.not_lt_zero _)
    · exact found
  | failed later => exact absurd (later a rest found.symm).1 (Nat.not_lt_zero _)
  | lost stricter later => exact absurd found.symm (later _)

theorem weaken {closed' : Prop} {before after : Except Fault (α × Bytes)}
    (fewer : closed' → closed) (foretold : Foretells closed strict more before after) :
    Foretells closed' strict more before after := by
  cases foretold with
  | read a rest => exact .read a rest
  | touching a unmarked later => exact .touching a (fun marked => unmarked (fewer marked)) later
  | failed later => exact .failed later
  | lost stricter later => exact .lost stricter later

theorem map {before after : Except Fault (α × Bytes)} (f : α → β)
    (foretold : Foretells closed strict more before after) :
    Foretells closed strict more (before.map fun (a, s) => (f a, s))
      (after.map fun (a, s) => (f a, s)) := by
  cases foretold with
  | read a rest => exact .read (f a) rest
  | touching a unmarked later =>
    apply Foretells.touching (f a) unmarked
    intro b rest found
    obtain ⟨a', read, rfl⟩ := ok_of_map found
    exact (later a' rest read).imp_right fun same => ⟨congrArg f same.1, same.2⟩
  | failed later =>
    apply Foretells.failed
    intro b rest found
    obtain ⟨a, read, -⟩ := ok_of_map found
    exact later a rest read
  | lost stricter later =>
    apply Foretells.lost stricter
    intro r found
    obtain ⟨a, read, -⟩ := ok_of_map found
    exact later _ read

/-- Two readers in a row. The second one takes at least one byte, and says so at the end of the text
if the first one may get there without a mark. -/
theorem andThen {closed' : Prop} {before after : Except Fault (α × Bytes)} {f g : α → Reader β}
    (first : Foretells closed' strict more before after)
    (second : ∀ a rest, before = .ok (a, rest) →
      Foretells closed strict more (f a rest) (g a (rest ++ more)))
    (needs : ¬closed' → ∀ a, f a [] = .error .unfinished) (consumes : ∀ a, Consumes (g a)) :
    Foretells closed strict more (Json.andThen before f) (Json.andThen after g) := by
  -- Whatever the two read in the longer text, the first one has read a part of it.
  have shorter : ∀ b rest, Json.andThen after g = .ok (b, rest) →
      ∃ a s, after = .ok (a, s) ∧ rest.length < s.length := by
    intro b rest found
    obtain ⟨a, s, read, behind⟩ := ok_of_andThen found
    exact ⟨a, s, read, (consumes a s b rest behind).2⟩
  cases first with
  | read a rest => exact second a rest rfl
  | touching a unmarked later =>
    simp only [Json.andThen, needs unmarked]
    refine .failed fun b rest found => ⟨?_, fun _ => rfl⟩
    obtain ⟨a', s, read, less⟩ := shorter b rest found
    rcases later a' s read with within | ⟨-, rfl⟩
    · exact Nat.lt_trans less within
    · exact less
  | failed later =>
    apply Foretells.failed
    intro b rest found
    obtain ⟨a', s, read, less⟩ := shorter b rest found
    exact ⟨Nat.lt_trans less (later a' s read).1, (later a' s read).2⟩
  | lost stricter later =>
    apply Foretells.lost stricter
    intro r found
    obtain ⟨a', s, read, -⟩ := shorter r.1 r.2 found
    exact later _ read

end Foretells

end AccelControl.Json
