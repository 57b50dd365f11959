import AccelControl.Proofs.Json.Foresight.Value
import AccelControl.Proofs.Json.Verdict.Number

/-! Whole values, and what becomes of them in longer texts.

Words, strings and brackets are read or refused for good as soon as their bytes are there. So only a
number at the end of the text can be refused too early, however deep it lies inside other values.
-/

set_option autoImplicit false

namespace AccelControl.Json

variable {α σ : Type}

theorem readStringFrom_settles (state : StringState) (done p : Bytes) :
    Settles p (readStringFrom state done p) fun more => readStringFrom state done (p ++ more) := by
  induction p generalizing state done with
  | nil => exact .unfinished
  | cons b p ih =>
    have behind := fun state done => (ih state done).extend (List.suffix_cons b p)
    cases state with
    | plain =>
      simp only [List.cons_append, readStringFrom]
      split
      · split
        · exact .read _ (List.suffix_cons b p) fun more => rfl
        · exact .refused fun more => rfl
      · split
        · exact behind _ _
        · split
          · exact .refused fun more => rfl
          · exact behind _ _
    | escape =>
      simp only [List.cons_append, readStringFrom]
      split
      · exact behind _ _
      · split
        · exact behind _ _
        · exact .refused fun more => rfl
    | digits read leading =>
      simp only [List.cons_append, readStringFrom]
      split
      · exact behind _ _
      · split
        · exact behind _ _
        · exact .refused fun more => rfl
    | paired leading =>
      simp only [List.cons_append, readStringFrom]
      split
      · exact behind _ _
      · exact .refused fun more => rfl
    | pairedEscape leading =>
      simp only [List.cons_append, readStringFrom]
      split
      · exact behind _ _
      · exact .refused fun more => rfl

theorem readString_settles (p : Bytes) :
    Settles p (readString p) fun more => readString (p ++ more) :=
  readStringFrom_settles .plain [] p

theorem readQuote_settles (p : Bytes) : Settles p ((readQuote p).map fun s => ((), s))
    fun more => (readQuote (p ++ more)).map fun s => ((), s) := by
  cases p with
  | nil => exact .unfinished
  | cons b p =>
    simp only [List.cons_append, readQuote]
    split
    · exact .read () (List.suffix_cons b p) fun more => rfl
    · exact .refused fun more => rfl

theorem readName_settles (p : Bytes) :
    Settles p (readName p) fun more => readName (p ++ more) := by
  unfold readName
  exact (readQuote_settles p).andThen (fun _ rest _ => readString_settles rest) (fun _ => rfl)
    fun _ _ => rfl

theorem readColon_settles (p : Bytes) : Settles p ((readColon p).map fun s => ((), s))
    fun more => (readColon (p ++ more)).map fun s => ((), s) := by
  cases blank : skipSpace p with
  | nil =>
    simp only [readColon.eq_def p, blank]
    exact .unfinished
  | cons b s =>
    have within := (List.suffix_cons b s).trans (blank ▸ skipSpace_suffix p)
    simp only [readColon, blank, skipSpace_append_of_cons blank]
    split
    · exact .read () within fun more => rfl
    · exact .refused fun more => rfl

/-- The step to the next item is the same in front of more bytes. -/
theorem behindNext_settles {close : UInt8} {first : Bool} {done : α} {item : Reader α}
    {item' : Bytes → Reader α} {p : Bytes}
    (items : ∀ s, s <:+ p → Settles s (item s) fun more => item' more (s ++ more)) :
    Settles p (behindNext close first done item p)
      fun more => behindNext close first done (item' more) (p ++ more) := by
  have step := next_append close first p
  cases before : next close first p with
  | error fault =>
    simp only [before, reduceCtorEq, false_and, exists_false, false_or, Except.error.injEq] at step
    cases fault with
    | unfinished =>
      simp only [behindNext, before]
      exact .unfinished
    | malformed =>
      have after : ∀ more, next close first (p ++ more) = .error .malformed := fun more => by
        simpa using step more
      simp only [behindNext, before, after]
      exact .refused fun more => rfl
    | mismatch m => simp at step
  | ok found =>
    have after : ∀ more, next close first (p ++ more) = .ok (found.append more) := fun more => by
      simpa [before] using step more
    have within := (next_suffix before).1
    simp only [behindNext, before, after]
    cases found with
    | closed s => exact .read done within fun more => rfl
    | item s => exact (items s within).extend within

structure Fits (limit : Nat) (limit' : Bytes → Nat) (p : Bytes) : Prop where
  now : p.length < limit
  later : ∀ more, (p ++ more).length < limit' more

namespace Fits

variable {limit : Nat} {limit' : Bytes → Nat} {p s : Bytes}

theorem of_suffix (fits : Fits limit limit' p) (suffix : s <:+ p) : Fits limit limit' s where
  now := Nat.lt_of_le_of_lt suffix.length_le fits.now
  later more := by
    have shorter := suffix.length_le
    have later := fits.later more
    rw [List.length_append] at later ⊢
    omega

/-- With the limits one lower, as long as a byte has been taken off the text. -/
theorem behind (fits : Fits (limit + 1) (fun more => limit' more + 1) p)
    (shorter : s.length < p.length) : Fits limit limit' s where
  now := Nat.lt_of_lt_of_le shorter (Nat.le_of_lt_succ fits.now)
  later more := by
    have later := fits.later more
    rw [List.length_append] at later ⊢
    omega

theorem raise {higher : Nat} {higher' : Bytes → Nat} (fits : Fits limit limit' p)
    (le : limit ≤ higher) (le' : ∀ more, limit' more ≤ higher' more) : Fits higher higher' p where
  now := Nat.lt_of_lt_of_le fits.now le
  later more := Nat.lt_of_lt_of_le (fits.later more) (le' more)

-- The limits of longer texts are not zero.
theorem exists_pred (fits : Fits limit limit' p) : ∃ lower : Bytes → Nat,
    limit' = fun more => lower more + 1 := by
  refine ⟨fun more => limit' more - 1, funext fun more => ?_⟩
  exact (Nat.succ_pred_eq_of_pos (Nat.zero_lt_of_lt (fits.later more))).symm

end Fits

/-- A reader of the parts of a value, with the readers of the same parts in longer texts, as far as
the texts fit. -/
structure PartSettles (limit : Nat) (limit' : Bytes → Nat) (part : Reader α)
    (part' : Bytes → Reader α) : Prop where
  consumes : Consumes part
  needs : part [] = .error .unfinished
  needs' : ∀ more, part' more [] = .error .unfinished
  settles : ∀ p, Fits limit limit' p → Settles p (part p) fun more => part' more (p ++ more)

section parts

variable {limit bound : Nat} {limit' bound' : Bytes → Nat} {first : Bool} {p : Bytes}

theorem readItems_settles {item : Reader α} {item' : Bytes → Reader α}
    (part : PartSettles limit limit' item item') (items : List α) (fits : Fits bound bound' p)
    (within : bound ≤ limit) (within' : ∀ more, bound' more ≤ limit' more) :
    Settles p (readItems item bound first items p)
      fun more => readItems (item' more) (bound' more) first items (p ++ more) := by
  -- Every item takes at least one byte, so what is left of the text fits what is left of the bound.
  induction bound generalizing bound' first items p with
  | zero => exact absurd fits.now (Nat.not_lt_zero _)
  | succ bound ih =>
    obtain ⟨bound', rfl⟩ := fits.exists_pred
    simp only [readItems_succ]
    apply behindNext_settles
    intro s suffix
    have fits := fits.of_suffix suffix
    refine (part.settles s (fits.raise within within')).andThen (fun value rest read => ?_)
      (fun value => readItems_nil _ _ _ _) (fun more value => readItems_nil _ _ _ _)
    have shorter := (part.consumes s value rest read).2
    exact ih _ (fits.behind shorter) (Nat.le_of_succ_le within)
      fun more => Nat.le_of_succ_le (within' more)

theorem readMembers_settles {member : σ → String → Reader σ}
    {member' : Bytes → σ → String → Reader σ}
    (part : ∀ state key, PartSettles limit limit' (member state key) fun more => member' more state key)
    (state : σ) (fits : Fits bound bound' p) (within : bound ≤ limit)
    (within' : ∀ more, bound' more ≤ limit' more) :
    Settles p (readMembers readString member bound first state p)
      fun more => readMembers readString (member' more) (bound' more) first state (p ++ more) := by
  induction bound generalizing bound' first state p with
  | zero => exact absurd fits.now (Nat.not_lt_zero _)
  | succ bound ih =>
    obtain ⟨bound', rfl⟩ := fits.exists_pred
    simp only [readMembers_succ]
    apply behindNext_settles
    intro s suffix
    have fits := fits.of_suffix suffix
    refine (readName_settles s).andThen (fun key s' name => ?_) (fun key => ?_) (fun more key => ?_)
    · have fits := fits.of_suffix (consumes_readName s key s' name).1
      refine ((part state key).settles s' (fits.raise within within')).andThen
        (fun state rest read => ?_) (fun state => readMembers_nil _ _ _ _)
        (fun more state => readMembers_nil _ _ _ _)
      have shorter := ((part _ key).consumes s' state rest read).2
      exact ih state (fits.behind shorter) (Nat.le_of_succ_le within)
        fun more => Nat.le_of_succ_le (within' more)
    · rw [(part state key).needs]
      rfl
    · rw [(part state key).needs' more]
      rfl

/-- The rest of a member, if its value does so. -/
theorem readMember_partSettles {part : Reader Json} {part' : Bytes → Reader Json}
    (value : PartSettles limit limit' part part') (members : Members Json) (name : String) :
    PartSettles limit limit' (readMember part members name)
      fun more => readMember (part' more) members name where
  consumes := consumes_readMember value.consumes members name
  needs := rfl
  needs' more := rfl
  settles p fits := by
    simp only [readMember_eq]
    refine (readColon_settles p).andThen (fun mark rest read => ?_) (fun mark => ?_)
      (fun more mark => ?_)
    · have suffix := (consumes_readColon p mark rest read).1
      exact (value.settles rest (fits.of_suffix suffix)).map fun value => members.insert name value
    · rw [value.needs]
      rfl
    · rw [value.needs' more]
      rfl

inductive PartsSettle (limit : Nat) (limit' : Bytes → Nat) :
    Option (Reader Json) → (Bytes → Option (Reader Json)) → Prop where
  | none : PartsSettle limit limit' none fun _ => none
  | some {part : Reader Json} {part' : Bytes → Reader Json}
      (settles : PartSettles limit limit' part part') :
      PartsSettle limit limit' (some part) fun more => some (part' more)

/-- The rest of an array or object behind its opening bracket. -/
theorem readBehind_settles {part : Option (Reader Json)} {part' : Bytes → Option (Reader Json)}
    (parts : PartsSettle bound bound' part part') {token : Token}
    (bracket : token = .openArray ∨ token = .openObject) (fits : Fits bound bound' p) :
    Settles p (readBehind bound part token p)
      fun more => readBehind (bound' more) (part' more) token (p ++ more) := by
  cases parts with
  | none => rcases bracket with rfl | rfl <;> exact .refused fun more => rfl
  | some settles =>
    rcases bracket with rfl | rfl
    · exact (readItems_settles settles [] fits (Nat.le_refl _) fun _ => Nat.le_refl _).map Json.array
    · exact (readMembers_settles (fun members name => readMember_partSettles settles members name) []
        fits (Nat.le_refl _) fun _ => Nat.le_refl _).map Json.object

end parts

section value

variable {bound : Nat} {bound' : Bytes → Nat} {part : Option (Reader Json)}
variable {part' : Bytes → Option (Reader Json)} {p s : Bytes}

-- The value of a token without parts is there with the token.
theorem andThen_readBehind_map {f : α → Token} {g : α → Json}
    (value : ∀ a bound part s, readBehind bound part (f a) s = .ok (g a, s))
    (result : Except Fault (α × Bytes)) (bound : Nat) (part : Option (Reader Json)) :
    andThen (result.map fun (a, s) => (f a, s)) (readBehind bound part)
      = result.map fun (a, s) => (g a, s) := by
  cases result with
  | error fault => rfl
  | ok read => exact value read.1 bound part read.2

theorem readWord_settles (word : Bytes) (token : Token) {v : Json}
    (value : ∀ bound part s, readBehind bound part token s = .ok (v, s)) :
    Settles s (andThen ((readWord word s).map (token, ·)) (readBehind bound part))
      fun more => andThen ((readWord word (s ++ more)).map (token, ·))
        (readBehind (bound' more) (part' more)) := by
  apply Settles.of_each
  intro more
  rcases readWord_append word s more with ⟨rest, before, after⟩ | ⟨before, after⟩ | ⟨before, -⟩
  · rw [before, after]
    exact .inl ⟨v, rest, value _ _ _, readWord_suffix before, value _ _ _⟩
  · rw [before, after]
    exact .inr (.inl ⟨rfl, rfl⟩)
  · rw [before]
    exact .inr (.inr rfl)

theorem readValueWith_settles (parts : PartsSettle bound bound' part part') (fits : Fits bound bound' p) :
    Settles p (readValueWith readNumber bound part p)
      fun more => readValueWith readNumber (bound' more) (part' more) (p ++ more) := by
  simp only [readValueWith_eq]
  cases blank : skipSpace p with
  | nil =>
    simp only [readTokenWith.eq_def _ p, blank]
    exact .unfinished
  | cons b s =>
    have inside : b :: s <:+ p := blank ▸ skipSpace_suffix p
    have behind : s <:+ p := (List.suffix_cons b s).trans inside
    simp only [readTokenWith, blank, skipSpace_append_of_cons blank]
    refine .andThen_ite (fun _ => ?_) fun _ => ?_
    · exact (readWord_settles _ .null fun _ _ _ => rfl).extend behind
    refine .andThen_ite (fun _ => ?_) fun _ => ?_
    · exact (readWord_settles _ (.bool true) fun _ _ _ => rfl).extend behind
    refine .andThen_ite (fun _ => ?_) fun _ => ?_
    · exact (readWord_settles _ (.bool false) fun _ _ _ => rfl).extend behind
    refine .andThen_ite (fun _ => ?_) fun _ => ?_
    · simp only [andThen_readBehind_map (f := Token.string) (g := Json.string) fun _ _ _ _ => rfl]
      exact ((readString_settles s).map Json.string).extend behind
    refine .andThen_ite (fun _ => ?_) fun _ => ?_
    · exact (readBehind_settles parts (.inl rfl) (fits.of_suffix behind)).extend behind
    refine .andThen_ite (fun _ => ?_) fun _ => ?_
    · exact (readBehind_settles parts (.inr rfl) (fits.of_suffix behind)).extend behind
    refine .andThen_ite (fun _ => ?_) fun _ => ?_
    · simp only [andThen_readBehind_map (f := Token.number) (g := Json.number) fun _ _ _ _ => rfl]
      exact ((readNumber_settles (b :: s)).map Json.number).extend inside
    · exact .refused fun more => rfl

end value

theorem readValueFrom_partSettles (bound : Nat) (bound' : Bytes → Nat) (depth : Nat) :
    PartSettles bound bound' (readValueFrom readNumber bound depth)
      fun more => readValueFrom readNumber (bound' more) depth := by
  induction depth with
  | zero => exact {
      consumes := consumes_readValueFrom consumes_readNumber bound 0
      needs := rfl
      needs' := fun more => rfl
      settles := fun p fits => readValueWith_settles .none fits }
  | succ depth ih => exact {
      consumes := consumes_readValueFrom consumes_readNumber bound (depth + 1)
      needs := rfl
      needs' := fun more => rfl
      settles := fun p fits => readValueWith_settles (.some ih) fits }

/-- What is read of a value settles what is read when more bytes follow. -/
theorem readValue_settles (p : Bytes) :
    Settles p (readValue p) fun more => readValue (p ++ more) :=
  (readValueFrom_partSettles (p.length + 1) (fun more => (p ++ more).length + 1) greatestDepth).settles p
    ⟨Nat.lt_succ_self _, fun _ => Nat.lt_succ_self _⟩

end AccelControl.Json
