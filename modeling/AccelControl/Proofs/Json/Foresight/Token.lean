import AccelControl.Json.Stream
import AccelControl.Proofs.Json.Foresight.Number

/-! Tokens, read in front of more text.

Words, strings and brackets mark their own end. The reader of numbers is left open, so that one
reader may accept more numbers than another.
-/

set_option autoImplicit false

namespace AccelControl.Json

variable {strict : Prop}

theorem readWord_suffix {word s rest : Bytes} (found : readWord word s = .ok rest) :
    rest <:+ s := by
  induction word generalizing s with
  | nil => cases found; exact List.suffix_rfl
  | cons b word ih =>
    cases s with
    | nil => exact nomatch found
    | cons c s =>
      simp only [readWord] at found
      split at found
      · exact (ih found).trans (List.suffix_cons c s)
      · exact nomatch found

-- A word is read in front of more, refused in front of more, or needs more.
theorem readWord_append (word p more : Bytes) :
    (∃ rest, readWord word p = .ok rest ∧ readWord word (p ++ more) = .ok (rest ++ more)) ∨
      (readWord word p = .error .malformed ∧ readWord word (p ++ more) = .error .malformed) ∨
      (readWord word p = .error .unfinished ∧
        ∀ rest, readWord word (p ++ more) = .ok rest → rest.length < more.length) := by
  induction word generalizing p with
  | nil => exact .inl ⟨p, rfl, rfl⟩
  | cons b word ih =>
    cases p with
    | nil =>
      refine .inr (.inr ⟨rfl, fun rest found => ?_⟩)
      cases more with
      | nil => exact nomatch found
      | cons c more =>
        simp only [List.nil_append, readWord] at found
        split at found
        · exact Nat.lt_succ_of_le (readWord_suffix found).length_le
        · exact nomatch found
    | cons c p =>
      simp only [List.cons_append, readWord]
      split
      · exact ih p
      · exact .inr (.inl ⟨rfl, rfl⟩)

theorem ok_of_map_pair {α : Type} {result : Except Fault Bytes} {a b : α} {rest : Bytes}
    (found : result.map (a, ·) = .ok (b, rest)) : result = .ok rest ∧ a = b := by
  cases result with
  | error fault => exact nomatch found
  | ok s =>
    cases found
    exact ⟨rfl, rfl⟩

theorem readWord_foretells {closed : Prop} (word p more : Bytes) (token : Token) :
    Foretells closed strict more ((readWord word p).map (token, ·))
      ((readWord word (p ++ more)).map (token, ·)) := by
  rcases readWord_append word p more with ⟨rest, before, after⟩ | ⟨before, after⟩ | ⟨before, later⟩
  · rw [before, after]
    exact .read token rest
  · rw [before, after]
    exact .same_error .malformed
  · rw [before]
    exact .failed fun found rest read => ⟨later rest (ok_of_map_pair read).1, fun _ => rfl⟩

theorem consumes_readStringFrom (state : StringState) (done : Bytes) :
    Consumes (readStringFrom state done) := by
  intro s text rest found
  induction s generalizing state done with
  | nil => simp [readStringFrom] at found
  | cons b s ih =>
    have behind : ∀ state done, readStringFrom state done s = .ok (text, rest) →
        rest <:+ b :: s ∧ rest.length < (b :: s).length := fun state done found =>
      ⟨(ih state done found).1.trans (List.suffix_cons b s), Nat.lt_succ_of_lt (ih state done found).2⟩
    cases state with
    | plain =>
      simp only [readStringFrom] at found
      split at found
      · split at found
        · cases found
          exact ⟨List.suffix_cons b rest, Nat.lt_succ_self _⟩
        · exact nomatch found
      · split at found
        · exact behind _ _ found
        · split at found
          · exact nomatch found
          · exact behind _ _ found
    | escape =>
      simp only [readStringFrom] at found
      split at found
      · exact behind _ _ found
      · split at found
        · exact behind _ _ found
        · exact nomatch found
    | digits read leading =>
      simp only [readStringFrom] at found
      split at found
      · exact behind _ _ found
      · split at found
        · exact behind _ _ found
        · exact nomatch found
    | paired leading =>
      simp only [readStringFrom] at found
      split at found
      · exact behind _ _ found
      · exact nomatch found
    | pairedEscape leading =>
      simp only [readStringFrom] at found
      split at found
      · exact behind _ _ found
      · exact nomatch found

theorem consumes_readString : Consumes readString := consumes_readStringFrom _ _

theorem readStringFrom_foretells (state : StringState) (done p more : Bytes) :
    Foretells True strict more (readStringFrom state done p)
      (readStringFrom state done (p ++ more)) := by
  induction p generalizing state done with
  | nil =>
    rw [readStringFrom]
    exact .failed fun text rest found =>
      ⟨(consumes_readStringFrom _ _ _ _ _ found).2, fun _ => rfl⟩
  | cons b p ih =>
    cases state with
    | plain =>
      simp only [List.cons_append, readStringFrom]
      split
      · split
        · exact .read _ p
        · exact .same_error .malformed
      · split
        · exact ih _ _
        · split
          · exact .same_error .malformed
          · exact ih _ _
    | escape =>
      simp only [List.cons_append, readStringFrom]
      split
      · exact ih _ _
      · split
        · exact ih _ _
        · exact .same_error .malformed
    | digits read leading =>
      simp only [List.cons_append, readStringFrom]
      split
      · exact ih _ _
      · split
        · exact ih _ _
        · exact .same_error .malformed
    | paired leading =>
      simp only [List.cons_append, readStringFrom]
      split
      · exact ih _ _
      · exact .same_error .malformed
    | pairedEscape leading =>
      simp only [List.cons_append, readStringFrom]
      split
      · exact ih _ _
      · exact .same_error .malformed

theorem readString_foretells (p more : Bytes) :
    Foretells True strict more (readString p) (readString (p ++ more)) :=
  readStringFrom_foretells _ _ _ _

/-- The text begins with a value that marks its own end. -/
def Marked (p : Bytes) : Prop := ∃ b s, skipSpace p = b :: s ∧ isDelimiting b = true

theorem consumes_readTokenWith {number : Reader Number} (consumes : Consumes number) :
    Consumes (readTokenWith number) := by
  intro s token rest found
  have suffix := skipSpace_suffix s
  simp only [readTokenWith] at found
  generalize skipSpace s = t at found suffix
  cases t with
  | nil => exact nomatch found
  | cons b t =>
    suffices inside : rest <:+ b :: t ∧ rest.length < (b :: t).length from
      ⟨inside.1.trans suffix, Nat.lt_of_lt_of_le inside.2 suffix.length_le⟩
    have behind : ∀ {s' : Bytes}, s' <:+ t → s' <:+ b :: t ∧ s'.length < (b :: t).length :=
      fun within => ⟨within.trans (List.suffix_cons b t), Nat.lt_succ_of_le within.length_le⟩
    dsimp only at found
    split at found
    · exact behind (readWord_suffix (ok_of_map_pair found).1)
    split at found
    · exact behind (readWord_suffix (ok_of_map_pair found).1)
    split at found
    · exact behind (readWord_suffix (ok_of_map_pair found).1)
    split at found
    · obtain ⟨text, read, -⟩ := ok_of_map found
      exact behind (consumes_readString t text rest read).1
    split at found
    · cases found; exact behind List.suffix_rfl
    split at found
    · cases found; exact behind List.suffix_rfl
    split at found
    · obtain ⟨n, read, -⟩ := ok_of_map found
      exact consumes (b :: t) n rest read
    · exact nomatch found

theorem readTokenWith_foretells {number number' : Reader Number} (consumes : Consumes number')
    (numbers : ∀ p more, Foretells False strict more (number p) (number' (p ++ more)))
    (p more : Bytes) :
    Foretells (Marked p) strict more (readTokenWith number p)
      (readTokenWith number' (p ++ more)) := by
  cases blank : skipSpace p with
  | nil =>
    simp only [readTokenWith, blank]
    rw [skipSpace_append_of_nil blank]
    refine .failed fun token rest found => ⟨?_, fun _ => rfl⟩
    exact (consumes_readTokenWith consumes more token rest found).2
  | cons b s =>
    simp only [readTokenWith, blank, skipSpace_append_of_cons blank]
    split
    · exact readWord_foretells _ _ _ _
    split
    · exact readWord_foretells _ _ _ _
    split
    · exact readWord_foretells _ _ _ _
    split
    · exact ((readString_foretells s more).weaken fun _ => trivial).map Token.string
    split
    · exact .read _ s
    split
    · exact .read _ s
    split
    · next notQuote notBracket notBrace _ =>
      refine ((numbers (b :: s) more).weaken ?_).map Token.number
      rintro ⟨b', s', found, delimiting⟩
      cases blank.symm.trans found
      simp [isDelimiting, notQuote, notBracket, notBrace] at delimiting
    · exact .same_error .malformed

def Token.Begins (b : UInt8) : Token → Prop
  | .null => b = 0x6E
  | .bool true => b = 0x74
  | .bool false => b = 0x66
  | .string _ => b = 0x22
  | .openArray => b = 0x5B
  | .openObject => b = 0x7B
  | .number _ => b = 0x2D ∨ isDigit b = true

theorem begins_of_readTokenWith {number : Reader Number} {p rest : Bytes} {token : Token}
    (found : readTokenWith number p = .ok (token, rest)) :
    ∃ b s, skipSpace p = b :: s ∧ token.Begins b := by
  cases front : skipSpace p with
  | nil => simp [readTokenWith, front] at found
  | cons b s =>
    refine ⟨b, s, rfl, ?_⟩
    simp only [readTokenWith, front] at found
    split at found
    · next begins => exact (ok_of_map_pair found).2 ▸ begins
    split at found
    · next begins => exact (ok_of_map_pair found).2 ▸ begins
    split at found
    · next begins => exact (ok_of_map_pair found).2 ▸ begins
    split at found
    · next begins =>
      obtain ⟨text, -, rfl⟩ := ok_of_map (f := Token.string) found
      exact begins
    split at found
    · next begins => cases found; exact begins
    split at found
    · next begins => cases found; exact begins
    split at found
    · next begins =>
      obtain ⟨n, -, rfl⟩ := ok_of_map (f := Token.number) found
      exact begins
    · cases found

-- A bracket marks the end of its value.
theorem marked_of_bracket {number : Reader Number} {p rest : Bytes} {token : Token}
    (found : readTokenWith number p = .ok (token, rest))
    (bracket : token = .openArray ∨ token = .openObject) : Marked p := by
  obtain ⟨b, s, front, begins⟩ := begins_of_readTokenWith found
  refine ⟨b, s, front, ?_⟩
  rcases bracket with rfl | rfl
  · cases begins
    rfl
  · cases begins
    rfl

end AccelControl.Json
