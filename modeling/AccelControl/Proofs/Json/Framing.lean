import AccelControl.Proofs.Json.Foresight.ShortNumber
import AccelControl.Proofs.Json.RoundTrip.Value
import AccelControl.Proofs.Json.Stream

/-! Texts that are taken off a buffer as soon as they are there, and not before.

The text of every array or object is of this kind, also behind white space, unless it has a number
with hundreds of digits.
-/

set_option autoImplicit false

namespace AccelControl.Json

/-- A text that is taken off a buffer as a value when its last byte is there, whatever stands behind
it, and of which nothing is taken before. -/
structure Framed (text : Bytes) (v : Json) : Prop where
  short : ∀ front back, text = front ++ back → back ≠ [] → take front = .incomplete
  whole : ∀ rest, take (text ++ rest) = .value v rest

theorem take_skipSpace (p : Bytes) : take (skipSpace p) = take p := by
  simp only [take, skipSpace_skipSpace]

theorem framed_of_gradual {number : Reader Number} (gradual : Gradual number) {text : Bytes}
    {v : Json} (read : readValueBy number text = .ok (v, [])) (parts : v.HasParts) :
    Framed text v where
  short front back split lacks := by
    by_cases blank : skipSpace front = []
    · exact take_blank blank
    · rw [split] at read
      have marked := (marked_of_hasParts read parts).of_append blank
      rcases readValue_of_gradual gradual marked read with ⟨none, -⟩ | ⟨-, unfinished⟩
      · exact absurd none lacks
      · rw [take_marked marked, unfinished]
  whole rest := by
    have marked := marked_of_hasParts read parts
    rw [← List.append_nil text] at read
    rcases readValue_of_gradual gradual marked read with ⟨-, whole⟩ | ⟨lacks, -⟩
    · exact take_append marked ((take_ok_marked marked).2 whole) rest
    · exact absurd rfl lacks

theorem HasParts.normalize {v : Json} (parts : v.HasParts) : v.normalize.HasParts := by
  cases v <;> exact parts

/-- The text of an array or object without floating-point numbers. -/
theorem framed_bytes {v : Json} (plain : v.FloatFree) (parts : v.HasParts)
    (shallow : v.depth ≤ greatestDepth) : Framed v.bytes v.normalize := by
  have read := readValueBy_bytes plain parts shallow []
  rw [List.append_nil] at read
  exact framed_of_gradual gradual_readInteger read parts.normalize

/-- No number in a text is written with more than three hundred digits in front of its point or
exponent: the text is accepted where such numbers are refused. -/
def ShortNumbers (text : Bytes) : Prop := (readValueBy readShortNumber text).isOk

instance (text : Bytes) : Decidable (ShortNumbers text) := inferInstanceAs (Decidable (_ = true))

/-- The text of an array or object in which all numbers are short. -/
theorem framed_of_readValue {text : Bytes} {v : Json} (read : readValue text = .ok (v, []))
    (parts : v.HasParts) (short : ShortNumbers text) : Framed text v := by
  unfold ShortNumbers at short
  cases found : readValueBy readShortNumber text with
  | error fault =>
    rw [found] at short
    exact nomatch short
  | ok result =>
    obtain ⟨w, rest⟩ := result
    have same : readValue text = .ok (w, rest) :=
      readValueFrom_of_gradual gradual_readShortNumber (Nat.lt_succ_self _) (Nat.lt_succ_self _) found
    rw [read] at same
    cases same
    exact framed_of_gradual gradual_readShortNumber found parts

theorem skipSpace_eq_nil {space : Bytes} (blank : ∀ b ∈ space, isSpace b = true) :
    skipSpace space = [] := by
  simpa [skipSpace] using blank

/-- White space in front makes no difference. -/
theorem Framed.behind_space {text space : Bytes} {v : Json} (framed : Framed text v)
    (blank : ∀ b ∈ space, isSpace b = true) : Framed (space ++ text) v where
  short front back split lacks := by
    -- Either all of the white space is there already, or a part of it is all that is there.
    rcases List.append_eq_append_iff.1 split with ⟨inner, same, split⟩ | ⟨inner, same, split⟩
    · rw [same, ← take_skipSpace, skipSpace_append_of_nil (skipSpace_eq_nil blank), take_skipSpace]
      exact framed.short inner back split lacks
    · refine take_blank (skipSpace_eq_nil fun b mem => blank b ?_)
      rw [same]
      exact List.mem_append_left inner mem
  whole rest := by
    rw [List.append_assoc, ← take_skipSpace, skipSpace_append_of_nil (skipSpace_eq_nil blank),
      take_skipSpace]
    exact framed.whole rest

/-- What is taken, again and again, off a buffer that holds these texts and nothing else: the value of
each, with the later texts left behind it, and nothing behind the last. -/
def takings : List (Bytes × Json) → List (Taken × Bytes)
  | [] => [(.incomplete, [])]
  | (_, v) :: texts =>
    let rest := texts.flatMap (·.1)
    (.value v rest, rest) :: takings texts

theorem takeEach_framed {texts : List (Bytes × Json)}
    (framed : ∀ text ∈ texts, Framed text.1 text.2) :
    takeEach (texts.flatMap (·.1)) (List.replicate (texts.length + 1) []) = takings texts := by
  induction texts with
  | nil => rfl
  | cons text texts ih =>
    obtain ⟨bytes, v⟩ := text
    obtain ⟨first, later⟩ := List.forall_mem_cons.1 framed
    have taken := first.whole (texts.flatMap (·.1))
    rw [List.length_cons, List.replicate_succ, takeEach, List.append_nil, List.flatMap_cons]
    simp only [taken, ih later, takings]

end AccelControl.Json
