import AccelControl.Proofs.Json.Listed
import AccelControl.Proofs.Json.RoundTrip.Value
import AccelControl.Schema.Basic

/-! The members that the text of an object writes.

A text may write a name twice, of which the value that is read keeps the last. What the text writes is
therefore read once more, with all its members in their order; names are compared as they are read, so
two spellings with different escapes are the same name.
-/

set_option autoImplicit false

namespace AccelControl.Json

section values

variable {number : Reader Number} {bound : Nat} {part : Option (Reader Json)} {token : Token}
  {s t rest : Bytes} {v : Json}

def partReader (number : Reader Number) (bound : Nat) : Nat → Option (Reader Json)
  | 0 => none
  | depth + 1 => some (readValueFrom number bound depth)

theorem readValueFrom_ok {depth : Nat} :
    readValueFrom number bound depth s = .ok (v, rest)
      ↔ ∃ token t, readTokenWith number s = .ok (token, t)
        ∧ readBehind bound (partReader number bound depth) token t = .ok (v, rest) := by
  have whole : readValueFrom number bound depth
      = readValueWith number bound (partReader number bound depth) := by
    cases depth <;> rfl
  rw [whole, readValueWith_eq]
  constructor
  · exact ok_of_andThen
  · rintro ⟨token, t, read, behind⟩
    rw [read]
    exact behind

theorem token_of_readBehind (found : readBehind bound part token t = .ok (v, rest)) :
    v.token = token := by
  cases token with
  | null => cases found; rfl
  | bool b => cases found; rfl
  | number n => cases found; rfl
  | string text => cases found; rfl
  | openArray =>
    cases part with
    | none => exact nomatch found
    | some part =>
      obtain ⟨items, -, rfl⟩ := ok_of_map (f := Json.array) found
      rfl
  | openObject =>
    cases part with
    | none => exact nomatch found
    | some part =>
      obtain ⟨members, -, rfl⟩ := ok_of_map (f := Json.object) found
      rfl

theorem readBehind_array_iff {part : Reader Json} (consumes : Consumes part)
    (fits : t.length < bound) :
    readBehind bound (some part) .openArray t = .ok (v, rest)
      ↔ ∃ items, Listed 0x5D part true t items rest ∧ v = .array items := by
  have items {items : List Json} : readItems part bound true [] t = .ok (items, rest)
      ↔ Listed 0x5D part true t items rest := by
    simp [readItems_iff consumes fits]
  constructor
  · intro found
    obtain ⟨read, inside, rfl⟩ := ok_of_map (f := Json.array) found
    exact ⟨read, items.1 inside, rfl⟩
  · rintro ⟨read, lists, rfl⟩
    simp only [readBehind, items.2 lists]
    rfl

theorem readBehind_object_iff {part : Reader Json} (consumes : Consumes part)
    (fits : t.length < bound) :
    readBehind bound (some part) .openObject t = .ok (v, rest)
      ↔ ∃ entries, ListedMembers part true t entries rest
        ∧ v = .object (Members.ofEntries entries) := by
  constructor
  · intro found
    obtain ⟨members, inside, rfl⟩ := ok_of_map (f := Json.object) found
    obtain ⟨entries, lists, rfl⟩ := (readMembers_iff consumes fits).1 inside
    exact ⟨entries, lists, rfl⟩
  · rintro ⟨entries, lists, rfl⟩
    simp only [readBehind, (readMembers_iff consumes fits).2 ⟨entries, lists, rfl⟩]
    rfl

end values

def keepMember (part : Reader Json) (before : List (String × Json)) (name : String) :
    Reader (List (String × Json)) := fun s =>
  (behindColon part s).map fun (value, s) => (before ++ [(name, value)], s)

/-- The members of the object that a text writes, in their order and with names that occur twice. -/
def writtenMembers? (s : Bytes) : Option (List (String × Json)) :=
  match readToken s with
  | .ok (.openObject, t) =>
    let part := readValueFrom readNumber (s.length + 1) (greatestDepth - 1)
    match readMembers readString (keepMember part) (s.length + 1) true [] t with
    | .ok (entries, rest) => if skipSpace rest = [] then some entries else none
    | .error _ => none
  | _ => none

section
variable {entries : List (String × Json)} {members : Members Json} {s : Bytes}

theorem readMembers_keepMember_iff {part : Reader Json} (consumes : Consumes part) {bound : Nat}
    {first : Bool} {rest : Bytes} (fits : s.length < bound) :
    readMembers readString (keepMember part) bound first [] s = .ok (entries, rest)
      ↔ ListedMembers part first s entries rest := by
  let step : List (String × Json) → String × Json → Except Fault (List (String × Json)) :=
    fun before entry => pure (before ++ [entry])
  have folds : ∀ entries before : List (String × Json),
      entries.foldlM step before = .ok (before ++ entries) := by
    intro entries
    induction entries with
    | nil => exact fun before => congrArg _ (List.append_nil before).symm
    | cons entry entries ih =>
      intro before
      rw [List.append_cons]
      exact ih (before ++ [entry])
  constructor
  · intro found
    obtain ⟨entries', lists, folded⟩ := listed_of_readMembers step consumes
      (fun {before _ name _ _} _ found => by
        obtain ⟨value, read, rfl⟩ := ok_of_map (f := fun value => before ++ [(name, value)]) found
        exact ⟨value, read, rfl⟩) fits found
    cases (folds entries' []).symm.trans folded
    exact lists
  · intro lists
    refine readMembers_of_listed step (fun _ => True) consumes (fun _ _ read stepped => ?_) fits fits
      (fun _ _ => trivial) lists (folds entries [])
    cases stepped
    rw [keepMember, read]
    rfl

theorem writtenMembers?_iff :
    writtenMembers? s = some entries
      ↔ ∃ t rest, readToken s = .ok (.openObject, t)
        ∧ ListedMembers (readValueFrom readNumber (s.length + 1) (greatestDepth - 1)) true t entries rest
        ∧ skipSpace rest = [] := by
  have consumes := consumes_readValueFrom consumes_readNumber (s.length + 1) (greatestDepth - 1)
  unfold writtenMembers?
  constructor
  · intro found
    split at found
    · next t opened =>
      have fits := length_lt_of_readToken opened
      dsimp only at found
      split at found
      · next entries' rest read =>
        rw [Option.ite_none_right_eq_some] at found
        obtain ⟨whole, ⟨⟩⟩ := found
        exact ⟨t, rest, opened, (readMembers_keepMember_iff consumes (by omega)).1 read, whole⟩
      · exact nomatch found
    · exact nomatch found
  · rintro ⟨t, rest, opened, lists, whole⟩
    have fits := length_lt_of_readToken opened
    have read := (readMembers_keepMember_iff consumes (Nat.lt_succ_of_lt fits)).2 lists
    simp only [opened, read, whole, if_true]

theorem readAll_ok {α : Type} {read : Reader α} {a : α} :
    readAll read s = .ok a ↔ ∃ rest, read s = .ok (a, rest) ∧ skipSpace rest = [] := by
  rw [readAll]
  cases read s with
  | error fault => simp
  | ok r => simp [Prod.ext_iff, ite_eq_iff, and_comm]

theorem parse_iff {v : Json} :
    parse s = .ok v
      ↔ ∃ token t rest, readToken s = .ok (token, t)
        ∧ readBehind (s.length + 1) (some (readValueFrom readNumber (s.length + 1) (greatestDepth - 1)))
            token t = .ok (v, rest)
        ∧ skipSpace rest = [] := by
  simp only [parse, readAll_ok, readValue, readValueBy, readValueFrom_ok]
  constructor
  · rintro ⟨rest, ⟨token, t, read, behind⟩, whole⟩
    exact ⟨token, t, rest, read, behind, whole⟩
  · rintro ⟨token, t, rest, read, behind, whole⟩
    exact ⟨rest, ⟨token, t, read, behind⟩, whole⟩

/-- The members of an object that is read are those that its text writes, the last one of each name. -/
theorem parse_object_iff :
    parse s = .ok (.object members)
      ↔ ∃ entries, writtenMembers? s = some entries ∧ members = Members.ofEntries entries := by
  have consumes := consumes_readValueFrom consumes_readNumber (s.length + 1) (greatestDepth - 1)
  simp only [parse_iff, writtenMembers?_iff]
  constructor
  · rintro ⟨token, t, rest, opened, behind, whole⟩
    cases token_of_readBehind behind
    have fits := Nat.lt_succ_of_lt (length_lt_of_readToken opened)
    obtain ⟨entries, lists, ⟨⟩⟩ := (readBehind_object_iff consumes fits).1 behind
    exact ⟨entries, ⟨t, rest, opened, lists, whole⟩, rfl⟩
  · rintro ⟨entries, ⟨t, rest, opened, lists, whole⟩, rfl⟩
    have fits := Nat.lt_succ_of_lt (length_lt_of_readToken opened)
    exact ⟨.openObject, t, rest, opened,
      (readBehind_object_iff consumes fits).2 ⟨entries, lists, rfl⟩, whole⟩

theorem parse_array_iff {items : List Json} :
    parse s = .ok (.array items)
      ↔ ∃ t rest, readToken s = .ok (.openArray, t)
        ∧ Listed 0x5D (readValueFrom readNumber (s.length + 1) (greatestDepth - 1)) true t items rest
        ∧ skipSpace rest = [] := by
  have consumes := consumes_readValueFrom consumes_readNumber (s.length + 1) (greatestDepth - 1)
  rw [parse_iff]
  constructor
  · rintro ⟨token, t, rest, opened, behind, whole⟩
    cases token_of_readBehind behind
    have fits := Nat.lt_succ_of_lt (length_lt_of_readToken opened)
    obtain ⟨_, lists, ⟨⟩⟩ := (readBehind_array_iff consumes fits).1 behind
    exact ⟨t, rest, opened, lists, whole⟩
  · rintro ⟨t, rest, opened, lists, whole⟩
    have fits := Nat.lt_succ_of_lt (length_lt_of_readToken opened)
    exact ⟨.openArray, t, rest, opened,
      (readBehind_array_iff consumes fits).2 ⟨items, lists, rfl⟩, whole⟩

/-- The text of an object in which a name occurs twice, once its escapes are read. -/
def RepeatsName (s : Bytes) : Prop :=
  ∃ entries, writtenMembers? s = some entries ∧ ¬(entries.map (·.1)).Nodup

theorem repeatsName_iff (written : writtenMembers? s = some entries) :
    RepeatsName s ↔ ¬(entries.map (·.1)).Nodup := by
  simp [RepeatsName, written]

theorem not_repeatsName_of_array {items : List Json} (read : parse s = .ok (.array items)) :
    ¬RepeatsName s := by
  rintro ⟨entries, written, -⟩
  exact nomatch read.symm.trans (parse_object_iff.2 ⟨entries, written, rfl⟩)

end

section text

variable {bound depth : Nat} {rest : Bytes}

theorem readEntry_memberBytes {part : Reader Json} {name : String} {value v : Json} {t : Bytes}
    (read : part (value.bytes ++ t) = .ok (v, rest)) :
    readEntry part (memberBytes name value ++ t) = .ok ((name, v), rest) := by
  rw [memberBytes, List.append_assoc]
  exact readEntry_ok.2 ⟨_, readName_bytes name _, read⟩

theorem readValueFrom_member {name : String} {value : Json} {members : List (String × Json)}
    (plain : value.FloatFree) (shallow : value.depth ≤ depth)
    (fits : (memberBytes name value ++ (membersTail members ++ rest)).length < bound) :
    readValueFrom readNumber bound depth (value.bytes ++ (membersTail members ++ rest))
      = .ok (value.normalize, membersTail members ++ rest) := by
  simp only [memberBytes, List.length_append, List.length_cons] at fits
  have fits' : (value.bytes ++ (membersTail members ++ rest)).length < bound := by
    simp only [List.length_append]
    omega
  apply readValueFrom_of_gradual gradual_readInteger fits' fits'
  exact readValueFrom_bytes value bound depth _ plain shallow (by omega)
    (.inr (endsNumber_membersTail members rest))

theorem listed_membersTail {members : List (String × Json)} (plain : FloatFreeMembers members)
    (shallow : membersDepth members ≤ depth) (fits : (membersTail members ++ rest).length < bound) :
    ListedMembers (readValueFrom readNumber bound depth) false (membersTail members ++ rest)
      (normalEntries members) rest := by
  induction members with
  | nil => exact .closed (next_close false (by decide))
  | cons member members ih =>
    obtain ⟨name, value⟩ := member
    obtain ⟨shallow, shallow'⟩ := Nat.max_le.1 shallow
    rw [membersTail, List.cons_append, List.append_assoc] at fits ⊢
    have fits := Nat.lt_of_succ_lt fits
    refine .item (next_memberBehind name value _)
      (readEntry_memberBytes (readValueFrom_member plain.1 shallow fits)) ?_
    rw [List.length_append] at fits
    exact ih plain.2 shallow' (by omega)

/-- The text of an object writes its members in their order. -/
theorem writtenMembers?_bytes {members : List (String × Json)} (plain : FloatFreeMembers members)
    (shallow : membersDepth members < greatestDepth) :
    writtenMembers? (object members).bytes = some (normalEntries members) := by
  apply writtenMembers?_iff.2
  cases members with
  | nil => exact ⟨_, [], rfl, .closed rfl, rfl⟩
  | cons member members =>
    obtain ⟨name, value⟩ := member
    obtain ⟨shallow, shallow'⟩ := Nat.max_le.1 (Nat.le_of_lt_succ shallow)
    rw [bytes_object]
    refine ⟨_, [], rfl, ?_, rfl⟩
    rw [← List.append_nil (membersTail members)]
    have fits : (memberBytes name value ++ (membersTail members ++ [])).length
        < (0x7B :: (memberBytes name value ++ (membersTail members ++ []))).length + 1 :=
      Nat.lt_succ_of_lt (Nat.lt_succ_self _)
    refine .item (next_firstMember name value _)
      (readEntry_memberBytes (readValueFrom_member plain.1 shallow fits)) ?_
    rw [List.length_append] at fits
    exact listed_membersTail plain.2 shallow' (by omega)

/-- A value that its text preserves. -/
structure Storable (v : Json) : Prop where
  plain : v.FloatFree
  canonical : v.Canonical
  shallow : v.depth < greatestDepth

theorem normalEntries_of_canonical {members : List (String × Json)}
    (canonical : ∀ member ∈ members, member.2.Canonical) : normalEntries members = members := by
  rw [normalEntries]
  refine (List.map_congr_left fun member mem => ?_).trans (List.map_id members)
  rw [normalize_of_canonical member.2 (canonical member mem)]
  rfl

theorem writtenMembers?_storable {members : List (String × Json)}
    (storable : ∀ member ∈ members, member.2.Storable) :
    writtenMembers? (object members).bytes = some members := by
  rw [writtenMembers?_bytes, normalEntries_of_canonical]
  · exact fun member mem => (storable member mem).canonical
  · exact floatFreeMembers_iff.2 fun member mem => (storable member mem).plain
  · exact Nat.lt_succ_of_le (membersDepth_le_iff.2 fun member mem =>
      Nat.le_of_lt_succ (storable member mem).shallow)

end text

end AccelControl.Json
