import AccelControl.Proofs.Json.Foresight.Value

/-! Taking values off a buffer to which bytes are added.

A value that marks its own end, as every array and object does, is taken off a buffer exactly if the
buffer reaches to its end, whatever follows.
-/

set_option autoImplicit false

namespace AccelControl.Json

theorem Marked.append {p : Bytes} (marked : Marked p) (more : Bytes) : Marked (p ++ more) := by
  obtain ⟨b, s, found, delimiting⟩ := marked
  exact ⟨b, s ++ more, skipSpace_append_of_cons found more, delimiting⟩

theorem Marked.of_append {p more : Bytes} (marked : Marked (p ++ more)) (begun : skipSpace p ≠ []) :
    Marked p := by
  obtain ⟨b, s, first, delimiting⟩ := marked
  cases skipped : skipSpace p with
  | nil => exact absurd skipped begun
  | cons c t =>
    rw [skipSpace_append_of_cons skipped] at first
    cases first
    exact ⟨b, t, skipped, delimiting⟩

theorem take_marked {p : Bytes} (marked : Marked p) :
    take p = match readValue (skipSpace p) with
      | .error .unfinished => .incomplete
      | .error _ => .malformed
      | .ok (v, rest) => .value v rest := by
  obtain ⟨b, s, found, delimiting⟩ := marked
  simp only [take, found]
  cases readValue (b :: s) with
  | error fault => cases fault <;> rfl
  | ok r => simp [delimiting]

theorem take_ok_marked {p rest : Bytes} {v : Json} (marked : Marked p) :
    take p = .value v rest ↔ readValue (skipSpace p) = .ok (v, rest) := by
  rw [take_marked marked]
  cases readValue (skipSpace p) with
  | error fault => cases fault <;> simp
  | ok r => simp [Prod.ext_iff]

theorem take_blank {p : Bytes} (blank : skipSpace p = []) : take p = .incomplete := by
  simp only [take, blank]

theorem readValue_of_take {p rest : Bytes} {v : Json} (found : take p = .value v rest) :
    readValue (skipSpace p) = .ok (v, rest) := by
  simp only [take] at found
  generalize skipSpace p = t at found
  cases t with
  | nil => exact nomatch found
  | cons b s =>
    dsimp only at found
    split at found
    · exact nomatch found
    · exact nomatch found
    · next w s' read =>
      split at found
      · cases found
        exact read
      · exact nomatch found

/-- An array or object marks its end. -/
theorem marked_of_take {p rest : Bytes} {v : Json} (found : take p = .value v rest)
    (parts : v.HasParts) : Marked p :=
  marked_skipSpace.1 (marked_of_hasParts (readValue_of_take found) parts)

/-- A value that marks its end is taken off the front of a longer buffer as well. -/
theorem take_append {p rest : Bytes} {v : Json} (marked : Marked p)
    (found : take p = .value v rest) (more : Bytes) :
    take (p ++ more) = .value v (rest ++ more) := by
  rw [take_ok_marked (marked.append more), skipSpace_append_marked marked]
  exact readValue_append (marked_skipSpace.2 marked) ((take_ok_marked marked).1 found) more

/-- A value that marks its end and is taken off a buffer was there before the last bytes came, or
reaches into them. -/
theorem take_of_append {p more rest : Bytes} {v : Json} (marked : Marked (p ++ more))
    (found : take (p ++ more) = .value v rest) :
    (∃ front, take p = .value v front ∧ rest = front ++ more) ∨
      rest.length < more.length ∧ ∀ w front, take p ≠ .value w front := by
  -- White space alone holds no beginning of a value, so all of the value lies in the last bytes.
  by_cases blank : skipSpace p = []
  · refine .inr ⟨?_, fun w front taken => ?_⟩
    · rw [take_ok_marked marked, skipSpace_append_of_nil blank] at found
      exact Nat.lt_of_lt_of_le (consumes_readValueBy consumes_readNumber _ _ _ found).2
        (skipSpace_suffix more).length_le
    · rw [take_blank blank] at taken
      exact nomatch taken
  · have marked' := marked.of_append blank
    rw [take_ok_marked marked, skipSpace_append_marked marked'] at found
    refine (readValue_of_append (marked_skipSpace.2 marked') found).imp ?_ fun short => ⟨short.1, ?_⟩
    · rintro ⟨front, read, same⟩
      exact ⟨front, (take_ok_marked marked').2 read, same⟩
    · intro w front taken
      obtain ⟨fault, failed⟩ := short.2
      exact nomatch failed.symm.trans ((take_ok_marked marked').1 taken)

theorem take_suffix {p rest : Bytes} {v : Json} (found : take p = .value v rest) : rest <:+ p :=
  (consumes_readValueBy consumes_readNumber _ _ _ (readValue_of_take found)).1.trans
    (skipSpace_suffix p)

/-- A value that marks its end is taken off its own bytes alone. -/
theorem take_cut {p rest : Bytes} {v : Json} (marked : Marked p) (found : take p = .value v rest) :
    ∃ front, p = front ++ rest ∧ take front = .value v [] := by
  obtain ⟨front, split⟩ := take_suffix found
  refine ⟨front, split.symm, ?_⟩
  rw [← split] at marked found
  rcases take_of_append marked found with ⟨left, taken, same⟩ | ⟨shorter, -⟩
  · rwa [List.self_eq_append_left.1 same] at taken
  · exact absurd shorter (Nat.lt_irrefl _)

/-- Nothing is taken off the beginning of the bytes of a value that marks its end. -/
theorem not_take_of_cut {front more : Bytes} {v : Json} (marked : Marked (front ++ more))
    (found : take (front ++ more) = .value v []) (lacks : more ≠ []) :
    ∀ w rest, take front ≠ .value w rest := by
  rcases take_of_append marked found with ⟨left, -, same⟩ | ⟨-, nothing⟩
  · exact absurd (List.append_eq_nil_iff.1 same.symm).2 lacks
  · exact nothing

end AccelControl.Json
