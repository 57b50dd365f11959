import AccelControl.Proofs.Json.Stream
import AccelControl.Proofs.Json.Verdict.Value

/-! Buffers that are refused, and whether more bytes can make a difference.

A buffer that no value starts with is refused for good, wherever the bytes were cut. The exception is
a buffer that ends in a number that is too large so far: an exponent below zero may still be on its
way.
-/

set_option autoImplicit false

namespace AccelControl.Json

instance (buffer : Bytes) : Decidable (take buffer = .malformed) :=
  match take buffer with
  | .malformed => isTrue rfl
  | .incomplete => isFalse nofun
  | .value _ _ => isFalse nofun

/-- A buffer ends in a number that is too large so far, and is not refused with more bytes that make
the number one that is not. -/
def EndsOversized (buffer : Bytes) : Prop :=
  ∃ number, number <:+ buffer ∧ Oversized number ∧
    ∀ more n, readNumber (number ++ more) = .ok (n, []) → take (buffer ++ more) ≠ .malformed

section begun

variable {p s : Bytes} {b : UInt8} (begun : skipSpace p = b :: s)

include begun

theorem take_of_refused {rest : Bytes} (refused : readValue (b :: s ++ rest) = .error .malformed) :
    take (p ++ rest) = .malformed := by
  rw [List.cons_append] at refused
  simp only [take, skipSpace_append_of_cons begun, refused]

theorem take_of_reachesEnd {rest : Bytes} (reaches : ReachesEnd (readValue (b :: s ++ rest))) :
    take (p ++ rest) ≠ .malformed := by
  rw [List.cons_append] at reaches
  simp only [take, skipSpace_append_of_cons begun]
  rcases reaches with unfinished | ⟨v, read⟩
  · simp [unfinished]
  · simp [read]

end begun

/-- A buffer that is refused is refused whatever follows, or ends in a number that is too large. -/
theorem final_or_endsOversized {buffer : Bytes} (rejected : take buffer = .malformed) :
    (∀ more, take (buffer ++ more) = .malformed) ∨ EndsOversized buffer := by
  cases begun : skipSpace buffer with
  | nil => exact nomatch (take_blank begun).symm.trans rejected
  | cons b s =>
    have settled := readValue_settles (b :: s)
    simp only [take, begun] at rejected
    generalize readValue (b :: s) = before at settled rejected
    generalize again : (fun more => readValue (b :: s ++ more)) = after at settled
    have again := congrFun again
    cases settled with
    | @read v rest _ within later =>
      -- The byte behind the value is there already, and it is one that may not follow.
      refine .inl fun more => ?_
      cases rest with
      | nil => simp at rejected
      | cons c rest =>
        have read := (again more).trans (later more)
        dsimp only at rejected
        by_cases follows : (isDelimiting b || (c :: rest).head?.all mayFollow) = true
        · rw [if_pos follows] at rejected
          cases rejected
        · rw [List.cons_append, List.cons_append] at read
          simp only [take, skipSpace_append_of_cons begun, read]
          exact if_neg follows
    | touching v => simp at rejected
    | unfinished => cases rejected
    | oversized ends tooLarge mends =>
      refine .inr ⟨_, ends.trans (begun ▸ skipSpace_suffix buffer), tooLarge, fun more n found => ?_⟩
      exact take_of_reachesEnd begun (again more ▸ mends more n found)
    | refused final => exact .inl fun more => take_of_refused begun ((again more).trans (final more))

/-- A buffer is refused for good exactly if it is refused and does not end in a number that more bytes
bring into range. -/
theorem rejection_final_iff (buffer : Bytes) :
    (∀ more, take (buffer ++ more) = .malformed)
      ↔ take buffer = .malformed ∧ ¬EndsOversized buffer := by
  constructor
  · intro final
    refine ⟨by simpa using final [], ?_⟩
    rintro ⟨number, -, tooLarge, mends⟩
    obtain ⟨more, n, found⟩ := tooLarge.exists_mended
    exact mends more n found (final more)
  · rintro ⟨rejected, apart⟩
    exact (final_or_endsOversized rejected).resolve_right apart

/-- A one with 309 zeros at the end of an array so far is refused, although an exponent may still make
it small and a bracket close the array. -/
theorem not_every_rejection_final :
    ¬∀ buffer, take buffer = .malformed → ∀ more, take (buffer ++ more) = .malformed := by
  intro final
  have rejected : take (0x5B :: manyPlaces 309) = .malformed := by decide +kernel
  -- The bytes of an exponent of minus 309 and of the closing bracket.
  have mended : take (0x5B :: manyPlaces 309 ++ [0x65, 0x2D, 0x33, 0x30, 0x39, 0x5D]) ≠ .malformed := by
    decide +kernel
  exact mended (final _ rejected _)

end AccelControl.Json
