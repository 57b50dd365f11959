import AccelControl.Json.Shape
import AccelControl.Proofs.Json.Foresight.Token

/-! Whole values, read in front of more text.

Arrays and objects are read by readers of their parts, to which two bounds apply: how many parts
there may be, and how deep they may nest. A bound on the number of parts that exceeds the length of
the text makes no difference, so it may differ between the two texts.
-/

set_option autoImplicit false

namespace AccelControl.Json

variable {α σ : Type} {strict : Prop}

def Next.rest : Next → Bytes
  | .closed s => s
  | .item s => s

def Next.append (more : Bytes) : Next → Next
  | .closed s => .closed (s ++ more)
  | .item s => .item (s ++ more)

theorem next_suffix {close : UInt8} {first : Bool} {s : Bytes} {step : Next}
    (found : next close first s = .ok step) :
    step.rest <:+ s ∧ ∀ rest, step = .closed rest → rest.length < s.length := by
  have suffix := skipSpace_suffix s
  simp only [next] at found
  generalize skipSpace s = t at found suffix
  cases t with
  | nil => exact nomatch found
  | cons b t =>
    have within := (List.suffix_cons b t).trans suffix
    have shorter : t.length < s.length := Nat.lt_of_lt_of_le (Nat.lt_succ_self _) suffix.length_le
    dsimp only at found
    split at found
    · cases found
      exact ⟨within, fun rest same => by cases same; exact shorter⟩
    split at found
    · cases found
      exact ⟨suffix, fun rest same => nomatch same⟩
    split at found
    · have inner := skipSpace_suffix t
      generalize skipSpace t = t' at found inner
      cases t' with
      | nil => exact nomatch found
      | cons c t' =>
        dsimp only at found
        split at found
        · exact nomatch found
        · cases found
          exact ⟨inner.trans within, fun rest same => nomatch same⟩
    · exact nomatch found

-- The step to the next item is the same in front of more text, or needs more.
theorem next_append (close : UInt8) (first : Bool) (p more : Bytes) :
    (∃ step, next close first p = .ok step ∧ next close first (p ++ more) = .ok (step.append more)) ∨
      (next close first p = .error .malformed ∧ next close first (p ++ more) = .error .malformed) ∨
      (next close first p = .error .unfinished ∧ ∀ step, next close first (p ++ more) = .ok step →
        step.rest.length ≤ more.length ∧ ∀ rest, step = .closed rest → rest.length < more.length) := by
  cases blank : skipSpace p with
  | nil =>
    refine .inr (.inr ⟨by simp only [next, blank], fun step found => ?_⟩)
    have same : next close first (p ++ more) = next close first more := by
      simp only [next, skipSpace_append_of_nil blank]
    rw [same] at found
    exact ⟨(next_suffix found).1.length_le, (next_suffix found).2⟩
  | cons b s =>
    simp only [next, blank, skipSpace_append_of_cons blank]
    split
    · exact .inl ⟨.closed s, rfl, rfl⟩
    split
    · exact .inl ⟨.item (b :: s), rfl, rfl⟩
    split
    · cases inner : skipSpace s with
      | nil =>
        rw [skipSpace_append_of_nil inner]
        refine .inr (.inr ⟨rfl, fun step found => ?_⟩)
        have suffix := skipSpace_suffix more
        generalize skipSpace more = t at found suffix
        cases t with
        | nil => exact nomatch found
        | cons c t =>
          dsimp only at found
          split at found
          · exact nomatch found
          · cases found
            exact ⟨suffix.length_le, fun rest same => nomatch same⟩
      | cons c t =>
        rw [skipSpace_append_of_cons inner]
        dsimp only
        split
        · exact .inr (.inl ⟨rfl, rfl⟩)
        · exact .inl ⟨.item (c :: t), rfl, rfl⟩
    · exact .inr (.inl ⟨rfl, rfl⟩)

def behindNext (close : UInt8) (first : Bool) (done : α) (item : Reader α) : Reader α := fun s =>
  match next close first s with
  | .error fault => .error fault
  | .ok (.closed s) => .ok (done, s)
  | .ok (.item s) => item s

section

variable {close : UInt8} {first : Bool} {done : α} {item : Reader α} {s rest : Bytes}

theorem behindNext_of_closed (step : next close first s = .ok (.closed rest)) :
    behindNext close first done item s = .ok (done, rest) := by
  simp only [behindNext, step]

theorem behindNext_of_item (step : next close first s = .ok (.item rest)) :
    behindNext close first done item s = item rest := by
  simp only [behindNext, step]

theorem behindNext_ok_iff {a : α} :
    behindNext close first done item s = .ok (a, rest)
      ↔ (next close first s = .ok (.closed rest) ∧ done = a) ∨
        ∃ t, next close first s = .ok (.item t) ∧ item t = .ok (a, rest) := by
  cases step : next close first s with
  | error fault => simp [behindNext, step]
  | ok step' =>
    cases step' with
    | closed t => simp [behindNext_of_closed step, and_comm]
    | item t => simp [behindNext_of_item step]

end

theorem consumes_behindNext {close : UInt8} {first : Bool} {done : α} {item : Reader α}
    (consumes : Consumes item) : Consumes (behindNext close first done item) := by
  intro s a rest found
  obtain ⟨step, -⟩ | ⟨t, step, found⟩ := behindNext_ok_iff.1 found
  · obtain ⟨suffix, shorter⟩ := next_suffix step
    exact ⟨suffix, shorter _ rfl⟩
  · obtain ⟨suffix, -⟩ := next_suffix step
    obtain ⟨behind, less⟩ := consumes t a rest found
    exact ⟨behind.trans suffix, Nat.lt_of_lt_of_le less suffix.length_le⟩

theorem behindNext_foretells {close : UInt8} {first : Bool} {done : α} {item item' : Reader α}
    (consumes' : Consumes item') {p more : Bytes}
    (items : ∀ s, s.length ≤ p.length → Foretells True strict more (item s) (item' (s ++ more))) :
    Foretells True strict more (behindNext close first done item p)
      (behindNext close first done item' (p ++ more)) := by
  unfold behindNext
  rcases next_append close first p more with ⟨step, before, after⟩ | ⟨before, after⟩ | ⟨before, later⟩
  · rw [before, after]
    cases step with
    | closed s => exact .read done s
    | item s => exact items s (next_suffix before).1.length_le
  · rw [before, after]
    exact .same_error .malformed
  · rw [before]
    refine .failed fun a rest found => ⟨?_, fun _ => rfl⟩
    cases after : next close first (p ++ more) with
    | error fault => rw [after] at found; exact nomatch found
    | ok step =>
      rw [after] at found
      obtain ⟨shorter, closes⟩ := later step after
      cases step with
      | closed s => cases found; exact closes _ rfl
      | item s => exact Nat.lt_of_lt_of_le (consumes' s a rest found).2 shorter

theorem behindNext_nil (close : UInt8) (first : Bool) (done : α) (item : Reader α) :
    behindNext close first done item [] = .error .unfinished := rfl

theorem readItems_succ (item : Reader α) (bound : Nat) (first : Bool) (items : List α) :
    readItems item (bound + 1) first items = behindNext 0x5D first items.reverse fun s =>
      andThen (item s) fun value => readItems item bound false (value :: items) := by
  funext s
  rw [readItems]
  rfl

theorem readItems_nil (item : Reader α) (bound : Nat) (first : Bool) (items : List α) :
    readItems item bound first items [] = .error .unfinished := by
  cases bound with
  | zero => rfl
  | succ bound => rw [readItems_succ, behindNext_nil]

theorem consumes_readItems {item : Reader α} (consumes : Consumes item) (bound : Nat)
    (first : Bool) (items : List α) : Consumes (readItems item bound first items) := by
  induction bound generalizing first items with
  | zero => exact fun s values rest found => nomatch found
  | succ bound ih =>
    rw [readItems_succ]
    exact consumes_behindNext (consumes_andThen consumes fun value => ih false (value :: items))

/-- Items up to the closing bracket, where a text that bounds the number of items is shorter than
the bound. -/
theorem readItems_foretells {item item' : Reader α} (consumes : Consumes item)
    (consumes' : Consumes item') {limit limit' : Nat}
    (parts : ∀ p more, p.length < limit → (p ++ more).length < limit' →
      Foretells False strict more (item p) (item' (p ++ more)))
    (bound bound' : Nat) (first : Bool) (items : List α) (p more : Bytes)
    (fits : p.length < bound) (fits' : (p ++ more).length < bound') (within : bound ≤ limit)
    (within' : bound' ≤ limit') :
    Foretells True strict more (readItems item bound first items p)
      (readItems item' bound' first items (p ++ more)) := by
  -- Every item takes at least one byte, so what is left of the text stays below what is left of
  -- the bound.
  induction bound generalizing bound' first items p with
  | zero => exact absurd fits (Nat.not_lt_zero _)
  | succ bound ih =>
    cases bound' with
    | zero => exact absurd fits' (Nat.not_lt_zero _)
    | succ bound' =>
      rw [readItems_succ, readItems_succ]
      apply behindNext_foretells
      · exact consumes_andThen consumes' fun value => consumes_readItems consumes' _ _ _
      intro s shorter
      rw [List.length_append] at fits'
      have item := parts s more (by omega) (by rw [List.length_append]; omega)
      refine item.andThen (fun value rest read => ?_) (fun _ value => readItems_nil _ _ _ _)
        (fun value => consumes_readItems consumes' _ _ _)
      have shorter' := (consumes s value rest read).2
      exact ih bound' false _ rest (by omega) (by rw [List.length_append]; omega) (by omega) (by omega)

def readName : Reader String := fun s =>
  andThen ((readQuote s).map fun s => ((), s)) fun _ => readString

theorem consumes_readQuote : Consumes fun s => (readQuote s).map fun s => ((), s) := by
  intro s mark rest found
  cases s with
  | nil => exact nomatch found
  | cons b s =>
    by_cases quote : b = 0x22
    · simp only [readQuote, quote, if_true, Except.map] at found
      cases found
      exact ⟨List.suffix_cons _ _, Nat.lt_succ_self _⟩
    · simp [readQuote, quote, Except.map] at found

theorem readQuote_foretells (p more : Bytes) :
    Foretells True strict more ((readQuote p).map fun s => ((), s))
      ((readQuote (p ++ more)).map fun s => ((), s)) := by
  cases p with
  | nil => exact .failed fun mark rest found => ⟨(consumes_readQuote _ _ _ found).2, fun _ => rfl⟩
  | cons b p =>
    simp only [List.cons_append, readQuote]
    split
    · exact .read () p
    · exact .same_error .malformed

theorem consumes_readName : Consumes readName :=
  consumes_andThen consumes_readQuote fun _ => consumes_readString

theorem readName_foretells (p more : Bytes) :
    Foretells True strict more (readName p) (readName (p ++ more)) :=
  (readQuote_foretells p more).andThen (fun _ rest _ => readString_foretells rest more)
    (fun _ _ => rfl) (fun _ => consumes_readString)

theorem consumes_readColon : Consumes fun s => (readColon s).map fun s => ((), s) := by
  intro s mark rest found
  have suffix := skipSpace_suffix s
  simp only [readColon] at found
  generalize skipSpace s = t at found suffix
  cases t with
  | nil => exact nomatch found
  | cons b t =>
    by_cases colon : b = 0x3A
    · simp only [colon, if_true, Except.map] at found
      cases found
      exact ⟨(List.suffix_cons _ _).trans suffix,
        Nat.lt_of_lt_of_le (Nat.lt_succ_self _) suffix.length_le⟩
    · simp [colon, Except.map] at found

theorem readColon_foretells (p more : Bytes) :
    Foretells True strict more ((readColon p).map fun s => ((), s))
      ((readColon (p ++ more)).map fun s => ((), s)) := by
  cases blank : skipSpace p with
  | nil =>
    have before : readColon p = .error .unfinished := by simp only [readColon, blank]
    rw [before]
    refine .failed fun mark rest found => ⟨?_, fun _ => rfl⟩
    have same : readColon (p ++ more) = readColon more := by
      simp only [readColon, skipSpace_append_of_nil blank]
    rw [same] at found
    exact (consumes_readColon _ _ _ found).2
  | cons b s =>
    simp only [readColon, blank, skipSpace_append_of_cons blank]
    split
    · exact .read () s
    · exact .same_error .malformed

theorem readMember_eq (part : Reader Json) (members : Members Json) (name : String) (s : Bytes) :
    readMember part members name s =
      andThen ((readColon s).map fun s => ((), s)) fun _ s =>
        (part s).map fun (value, s) => (members.insert name value, s) := by
  simp only [readMember]
  cases readColon s with
  | error fault => rfl
  | ok s => cases h : part s <;> simp [andThen, Except.map, h]

theorem consumes_readMember {part : Reader Json} (consumes : Consumes part)
    (members : Members Json) (name : String) : Consumes (readMember part members name) := by
  intro s result rest found
  rw [readMember_eq] at found
  exact consumes_andThen consumes_readColon
    (fun _ => consumes_map consumes fun value => members.insert name value) _ _ _ found

theorem readMembers_succ (member : σ → String → Reader σ) (bound : Nat) (first : Bool) (state : σ) :
    readMembers readString member (bound + 1) first state = behindNext 0x7D first state fun s =>
      andThen (readName s) fun key s =>
        andThen (member state key s) fun state => readMembers readString member bound false state := by
  funext s
  rw [readMembers, behindNext]
  cases next 0x7D first s with
  | error fault => rfl
  | ok step =>
    cases step with
    | closed s => rfl
    | item s =>
      simp only [readName]
      cases readQuote s with
      | error fault => rfl
      | ok s =>
        simp only [andThen, Except.map]
        cases readString s <;> rfl

theorem readMembers_nil (member : σ → String → Reader σ) (bound : Nat) (first : Bool) (state : σ) :
    readMembers readString member bound first state [] = .error .unfinished := by
  cases bound with
  | zero => rfl
  | succ bound => rw [readMembers_succ, behindNext_nil]

theorem consumes_readMembers {member : σ → String → Reader σ}
    (consumes : ∀ state key, Consumes (member state key)) (bound : Nat) (first : Bool) (state : σ) :
    Consumes (readMembers readString member bound first state) := by
  induction bound generalizing first state with
  | zero => exact fun s result rest found => nomatch found
  | succ bound ih =>
    rw [readMembers_succ]
    exact consumes_behindNext (consumes_andThen consumes_readName fun key =>
      consumes_andThen (consumes state key) fun state => ih false state)

/-- Members up to the closing bracket, where a text that bounds the number of members is shorter
than the bound. -/
theorem readMembers_foretells {member member' : σ → String → Reader σ}
    (consumes : ∀ state key, Consumes (member state key))
    (consumes' : ∀ state key, Consumes (member' state key)) {limit limit' : Nat}
    (parts : ∀ state key p more, p.length < limit → (p ++ more).length < limit' →
      Foretells False strict more (member state key p) (member' state key (p ++ more)))
    (bound bound' : Nat) (first : Bool) (state : σ) (p more : Bytes)
    (fits : p.length < bound) (fits' : (p ++ more).length < bound') (within : bound ≤ limit)
    (within' : bound' ≤ limit') :
    Foretells True strict more (readMembers readString member bound first state p)
      (readMembers readString member' bound' first state (p ++ more)) := by
  induction bound generalizing bound' first state p with
  | zero => exact absurd fits (Nat.not_lt_zero _)
  | succ bound ih =>
    cases bound' with
    | zero => exact absurd fits' (Nat.not_lt_zero _)
    | succ bound' =>
      have behindName := fun key =>
        consumes_andThen (consumes' state key) fun state =>
          consumes_readMembers consumes' bound' false state
      rw [readMembers_succ, readMembers_succ]
      apply behindNext_foretells
      · exact consumes_andThen consumes_readName behindName
      intro s shorter
      rw [List.length_append] at fits'
      refine (readName_foretells s more).andThen (fun key s₁ name => ?_)
        (fun unmarked => absurd trivial unmarked) behindName
      have shorter₁ := (consumes_readName s key s₁ name).2
      have member := parts state key s₁ more (by omega) (by rw [List.length_append]; omega)
      refine member.andThen (fun state s₂ read => ?_) (fun _ state => readMembers_nil _ _ _ _)
        (fun state => consumes_readMembers consumes' _ _ _)
      have shorter₂ := (consumes _ _ _ _ _ read).2
      exact ih bound' false _ s₂ (by omega) (by rw [List.length_append]; omega) (by omega) (by omega)

theorem readMember_foretells {part part' : Reader Json} (consumes' : Consumes part')
    (members : Members Json) (name : String) {p more : Bytes}
    (parts : ∀ s, s <:+ p → Foretells False strict more (part s) (part' (s ++ more))) :
    Foretells False strict more (readMember part members name p)
      (readMember part' members name (p ++ more)) := by
  simp only [readMember_eq]
  refine (readColon_foretells p more).andThen (fun _ s colon => ?_)
    (fun unmarked => absurd trivial unmarked)
    (fun _ => consumes_map consumes' fun value => members.insert name value)
  exact (parts s (consumes_readColon _ _ _ colon).1).map fun value => members.insert name value

def readBehind (bound : Nat) (part : Option (Reader Json)) : Token → Reader Json
  | .null, s => .ok (.null, s)
  | .bool b, s => .ok (.bool b, s)
  | .number n, s => .ok (.number n, s)
  | .string text, s => .ok (.string text, s)
  | .openArray, s =>
    match part with
    | none => .error .malformed
    | some part => (readItems part bound true [] s).map fun (items, s) => (.array items, s)
  | .openObject, s =>
    match part with
    | none => .error .malformed
    | some part =>
      (readMembers readString (readMember part) bound true [] s).map fun (members, s) =>
        (.object members, s)

theorem readValueWith_eq (number : Reader Number) (bound : Nat) (part : Option (Reader Json))
    (s : Bytes) : readValueWith number bound part s =
      andThen (readTokenWith number s) (readBehind bound part) := by
  simp only [readValueWith]
  cases readTokenWith number s with
  | error fault => rfl
  | ok r =>
    obtain ⟨token, s⟩ := r
    cases token with
    | openArray =>
      cases part with
      | none => rfl
      | some part =>
        cases h : readItems part bound true [] s <;> simp [andThen, readBehind, h, Except.map]
    | openObject =>
      cases part with
      | none => rfl
      | some part =>
        cases h : readMembers readString (readMember part) bound true [] s <;>
          simp [andThen, readBehind, h, Except.map]
    | null => rfl
    | bool b => rfl
    | number n => rfl
    | string text => rfl

theorem readBehind_suffix {bound : Nat} {part : Option (Reader Json)}
    (consumes : ∀ read ∈ part, Consumes read) {token : Token} {s rest : Bytes} {v : Json}
    (found : readBehind bound part token s = .ok (v, rest)) : rest <:+ s := by
  cases token with
  | null => cases found; exact List.suffix_rfl
  | bool b => cases found; exact List.suffix_rfl
  | number n => cases found; exact List.suffix_rfl
  | string text => cases found; exact List.suffix_rfl
  | openArray =>
    cases part with
    | none => exact nomatch found
    | some part =>
      exact (consumes_map (consumes_readItems (consumes part rfl) _ _ _) Json.array _ _ _ found).1
  | openObject =>
    cases part with
    | none => exact nomatch found
    | some part =>
      exact (consumes_map (consumes_readMembers
        (fun members name => consumes_readMember (consumes part rfl) members name) _ _ _)
        Json.object _ _ _ found).1

theorem consumes_readValueWith {number : Reader Number} (consumes : Consumes number) {bound : Nat}
    {part : Option (Reader Json)} (consumes' : ∀ read ∈ part, Consumes read) :
    Consumes (readValueWith number bound part) := by
  intro s v rest found
  rw [readValueWith_eq] at found
  obtain ⟨token, s', read, found⟩ := ok_of_andThen found
  obtain ⟨suffix, shorter⟩ := consumes_readTokenWith consumes s token s' read
  have behind := readBehind_suffix consumes' found
  exact ⟨behind.trans suffix, Nat.lt_of_le_of_lt behind.length_le shorter⟩

def PartsForetell (strict : Prop) (limit limit' : Nat) : Option (Reader Json) → Option (Reader Json) →
    Prop
  | none, none => True
  | some part, some part' => ∀ p more, p.length < limit → (p ++ more).length < limit' →
      Foretells False strict more (part p) (part' (p ++ more))
  | _, _ => False

theorem readBehind_foretells {bound bound' : Nat} {part part' : Option (Reader Json)}
    (consumes : ∀ read ∈ part, Consumes read) (consumes' : ∀ read ∈ part', Consumes read)
    (parts : PartsForetell strict bound bound' part part') (token : Token) {p more : Bytes}
    (fits : p.length < bound) (fits' : (p ++ more).length < bound') :
    Foretells True strict more (readBehind bound part token p)
      (readBehind bound' part' token (p ++ more)) := by
  cases token with
  | null => exact .read _ p
  | bool b => exact .read _ p
  | number n => exact .read _ p
  | string text => exact .read _ p
  | openArray =>
    match part, part', parts with
    | none, none, _ => exact .same_error .malformed
    | some part, some part', parts =>
      exact (readItems_foretells (consumes part rfl) (consumes' part' rfl) parts bound bound' true []
        p more fits fits' (Nat.le_refl _) (Nat.le_refl _)).map Json.array
  | openObject =>
    match part, part', parts with
    | none, none, _ => exact .same_error .malformed
    | some part, some part', parts =>
      have inside : ∀ members name p more, p.length < bound → (p ++ more).length < bound' →
          Foretells False strict more (readMember part members name p)
            (readMember part' members name (p ++ more)) := by
        intro members name p more fits fits'
        apply readMember_foretells (consumes' part' rfl) members name
        intro s suffix
        have shorter := suffix.length_le
        apply parts s more (by omega)
        rw [List.length_append] at fits' ⊢
        omega
      exact (readMembers_foretells
        (fun members name => consumes_readMember (consumes part rfl) members name)
        (fun members name => consumes_readMember (consumes' part' rfl) members name)
        inside bound bound' true [] p more fits fits' (Nat.le_refl _) (Nat.le_refl _)).map Json.object

-- The value of a token without parts is there at once, whatever follows.
theorem readBehind_scalar {token : Token} (scalar : ¬(token = .openArray ∨ token = .openObject)) :
    ∃ v : Json, ¬v.HasParts ∧ ∀ bound part s, readBehind bound part token s = .ok (v, s) := by
  cases token with
  | null => exact ⟨.null, not_false, fun _ _ _ => rfl⟩
  | bool b => exact ⟨.bool b, not_false, fun _ _ _ => rfl⟩
  | number n => exact ⟨.number n, not_false, fun _ _ _ => rfl⟩
  | string text => exact ⟨.string text, not_false, fun _ _ _ => rfl⟩
  | openArray => exact absurd (.inl rfl) scalar
  | openObject => exact absurd (.inr rfl) scalar

theorem readValueWith_foretells {number number' : Reader Number} (consumes : Consumes number)
    (consumes' : Consumes number')
    (numbers : ∀ p more, Foretells False strict more (number p) (number' (p ++ more)))
    {bound bound' : Nat} {part part' : Option (Reader Json)}
    (consumes₁ : ∀ read ∈ part, Consumes read) (consumes₂ : ∀ read ∈ part', Consumes read)
    (parts : PartsForetell strict bound bound' part part') {p more : Bytes}
    (fits : p.length < bound) (fits' : (p ++ more).length < bound') :
    Foretells (Marked p) strict more (readValueWith number bound part p)
      (readValueWith number' bound' part' (p ++ more)) := by
  have token := readTokenWith_foretells consumes' numbers p more
  simp only [readValueWith_eq]
  generalize before : readTokenWith number p = x at token
  generalize readTokenWith number' (p ++ more) = y at token
  have behind : ∀ v rest, andThen y (readBehind bound' part') = .ok (v, rest) →
      ∃ token s, y = .ok (token, s) ∧ rest.length ≤ s.length := by
    intro v rest found
    obtain ⟨token, s, read, found⟩ := ok_of_andThen found
    exact ⟨token, s, read, (readBehind_suffix consumes₂ found).length_le⟩
  cases token with
  | read token rest =>
    have shorter := (consumes_readTokenWith consumes _ _ _ before).2
    have fits₂ : (rest ++ more).length < bound' := by
      rw [List.length_append] at fits' ⊢
      omega
    exact (readBehind_foretells consumes₁ consumes₂ parts token (by omega) fits₂).weaken
      fun _ => trivial
  | touching token unmarked later =>
    -- Only a number gets here, as a bracket is marked.
    have scalar : ¬(token = .openArray ∨ token = .openObject) := fun bracket =>
      unmarked (marked_of_bracket before bracket)
    obtain ⟨v, -, value⟩ := readBehind_scalar scalar
    rw [show andThen (.ok (token, [])) (readBehind bound part) = .ok (v, []) from value _ _ _]
    apply Foretells.touching v unmarked
    intro v' rest found
    obtain ⟨token', s, same, shorter⟩ := behind v' rest found
    rcases later _ _ same with within | ⟨rfl, rfl⟩
    · exact .inl (Nat.lt_of_le_of_lt shorter within)
    · rw [same, show andThen (.ok (token', s)) (readBehind bound' part') = .ok (v, s) from value _ _ _]
        at found
      cases found
      exact .inr ⟨rfl, rfl⟩
  | failed later =>
    apply Foretells.failed
    intro v rest found
    obtain ⟨token, s, same, shorter⟩ := behind v rest found
    exact ⟨Nat.lt_of_le_of_lt shorter (later _ _ same).1, (later _ _ same).2⟩
  | lost stricter later =>
    apply Foretells.lost stricter
    intro r found
    obtain ⟨token, s, same, -⟩ := behind r.1 r.2 found
    exact later _ same

theorem consumes_readValueFrom {number : Reader Number} (consumes : Consumes number) (bound : Nat)
    (depth : Nat) : Consumes (readValueFrom number bound depth) := by
  induction depth with
  | zero => exact consumes_readValueWith consumes fun read mem => nomatch mem
  | succ depth ih =>
    apply consumes_readValueWith consumes
    intro read mem
    cases mem
    exact ih

theorem readValueFrom_foretells {number number' : Reader Number} (consumes : Consumes number)
    (consumes' : Consumes number')
    (numbers : ∀ p more, Foretells False strict more (number p) (number' (p ++ more)))
    {bound bound' : Nat} (depth : Nat) {p more : Bytes} (fits : p.length < bound)
    (fits' : (p ++ more).length < bound') :
    Foretells (Marked p) strict more (readValueFrom number bound depth p)
      (readValueFrom number' bound' depth (p ++ more)) := by
  -- The parts of a value are read one level deeper, and marked or not does not matter for them.
  induction depth generalizing p more with
  | zero =>
    simp only [readValueFrom]
    refine readValueWith_foretells consumes consumes' numbers ?_ ?_ ?_ fits fits'
    · exact fun read mem => nomatch mem
    · exact fun read mem => nomatch mem
    · trivial
  | succ depth ih =>
    have deeper := consumes_readValueFrom consumes bound depth
    have deeper' := consumes_readValueFrom consumes' bound' depth
    simp only [readValueFrom]
    refine readValueWith_foretells consumes consumes' numbers ?_ ?_ ?_ fits fits'
    · intro read mem
      cases mem
      exact deeper
    · intro read mem
      cases mem
      exact deeper'
    · exact fun p more fits fits' => (ih fits fits').weaken False.elim

-- An array or object begins with its bracket.
theorem marked_of_hasParts {number : Reader Number} {bound depth : Nat} {p rest : Bytes} {v : Json}
    (found : readValueFrom number bound depth p = .ok (v, rest)) (parts : v.HasParts) :
    Marked p := by
  have inside : ∀ part, readValueWith number bound part p = .ok (v, rest) → Marked p := by
    intro part found
    rw [readValueWith_eq] at found
    obtain ⟨token, s, read, found⟩ := ok_of_andThen found
    apply marked_of_bracket read
    apply Decidable.byContradiction
    intro scalar
    obtain ⟨w, partless, value⟩ := readBehind_scalar scalar
    rw [value] at found
    cases found
    exact partless parts
  cases depth with
  | zero => exact inside _ found
  | succ depth => exact inside _ found

theorem consumes_readValueBy {number : Reader Number} (consumes : Consumes number) :
    Consumes (readValueBy number) := fun _ _ _ found =>
  consumes_readValueFrom consumes _ _ _ _ _ found

theorem readValueBy_foretells {number number' : Reader Number} (consumes : Consumes number)
    (consumes' : Consumes number')
    (numbers : ∀ p more, Foretells False strict more (number p) (number' (p ++ more)))
    (p more : Bytes) :
    Foretells (Marked p) strict more (readValueBy number p) (readValueBy number' (p ++ more)) :=
  readValueFrom_foretells consumes consumes' numbers _ (Nat.lt_succ_self _) (Nat.lt_succ_self _)

theorem readValue_append {p rest : Bytes} {v : Json} (marked : Marked p)
    (found : readValue p = .ok (v, rest)) (more : Bytes) :
    readValue (p ++ more) = .ok (v, rest ++ more) := by
  have foretold := readValueBy_foretells consumes_readNumber consumes_readNumber
    readNumber_foretells p more
  rw [show readValueBy readNumber p = .ok (v, rest) from found] at foretold
  exact foretold.ok_of_ok marked not_false

/-- What is read in a longer text was read before, or the text was too short for it. -/
theorem readValue_of_append {p more rest : Bytes} {v : Json} (marked : Marked p)
    (found : readValue (p ++ more) = .ok (v, rest)) :
    (∃ front, readValue p = .ok (v, front) ∧ rest = front ++ more) ∨
      rest.length < more.length ∧ ∃ fault, readValue p = .error fault := by
  have foretold := readValueBy_foretells consumes_readNumber consumes_readNumber
    readNumber_foretells p more
  rw [show readValueBy readNumber (p ++ more) = .ok (v, rest) from found] at foretold
  exact (foretold.of_ok marked).imp_right fun short => ⟨short.1, short.2.imp fun _ failed => failed.1⟩

theorem marked_skipSpace {p : Bytes} : Marked (skipSpace p) ↔ Marked p := by
  simp only [Marked, skipSpace_skipSpace]

theorem skipSpace_append_marked {p : Bytes} (marked : Marked p) (more : Bytes) :
    skipSpace (p ++ more) = skipSpace p ++ more := by
  obtain ⟨b, s, found, -⟩ := marked
  rw [skipSpace_append_of_cons found, found]
  rfl

-- What a reader of fewer numbers reads is read.
theorem readValueFrom_of_gradual {number : Reader Number} (gradual : Gradual number)
    {bound bound' depth : Nat} {s rest : Bytes} {v : Json} (fits : s.length < bound)
    (fits' : s.length < bound') (found : readValueFrom number bound' depth s = .ok (v, rest)) :
    readValueFrom readNumber bound depth s = .ok (v, rest) := by
  have fits' : (s ++ []).length < bound' := by rwa [List.append_nil]
  have foretold := readValueFrom_foretells consumes_readNumber gradual.consumes gradual.foretells
    depth fits fits'
  rw [List.append_nil, found] at foretold
  exact foretold.ok_of_same

theorem readValueFrom_skipSpace (number : Reader Number) (bound depth : Nat) (s : Bytes) :
    readValueFrom number bound depth (skipSpace s) = readValueFrom number bound depth s := by
  cases depth <;> simp only [readValueFrom, readValueWith, readTokenWith, skipSpace_skipSpace]

/-- A text that a reader of fewer numbers reads to its end is read, and what it begins with is not
refused. -/
theorem readValue_of_gradual {number : Reader Number} (gradual : Gradual number)
    {front back : Bytes} {v : Json} (marked : Marked front)
    (found : readValueBy number (front ++ back) = .ok (v, [])) :
    back = [] ∧ readValue (skipSpace front) = .ok (v, []) ∨
      back ≠ [] ∧ readValue (skipSpace front) = .error .unfinished := by
  have fits : (skipSpace front ++ back).length < (front ++ back).length + 1 := by
    have shorter := (skipSpace_suffix front).length_le
    simp only [List.length_append]
    omega
  have foretold := readValueFrom_foretells consumes_readNumber gradual.consumes gradual.foretells
    greatestDepth (Nat.lt_succ_self _) fits
  have found' : readValueFrom number ((front ++ back).length + 1) greatestDepth
      (skipSpace front ++ back) = .ok (v, []) := by
    rw [← skipSpace_append_marked marked, readValueFrom_skipSpace]
    exact found
  rw [found'] at foretold
  rcases foretold.of_ok (marked_skipSpace.2 marked) with ⟨rest, read, same⟩ | ⟨shorter, fault, read⟩
  · obtain ⟨rfl, rfl⟩ := List.append_eq_nil_iff.1 same.symm
    exact .inl ⟨rfl, read⟩
  · refine .inr ⟨List.ne_nil_of_length_pos shorter, ?_⟩
    rw [← read.2 trivial]
    exact read.1

end AccelControl.Json
