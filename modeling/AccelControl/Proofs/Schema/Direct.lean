import AccelControl.Proofs.Json.Written
import AccelControl.Proofs.Schema.Acceptance

/-! Data read directly from a text, and by way of a value.

Most shapes read a text directly exactly if the text has a value from which the same data are read. For
records that holds too, as long as no name occurs twice: the value keeps the last of two members with one
name, and the direct way refuses the second one.
-/

set_option autoImplicit false

namespace AccelControl

open Json (Reader Token Consumes Listed ListedMembers readNumber readToken readValueFrom
  consumes_readNumber consumes_readValueFrom)

namespace Schema

variable {α β : Type} {schema : Schema α} {levels : Nat}

/-- Where values may open `levels` more brackets inside one another, data are read directly exactly if
they are read from a value. -/
def Faithful (schema : Schema α) (levels : Nat) : Prop :=
  ∀ ⦃bound depth : Nat⦄ ⦃s rest : Bytes⦄ ⦃a : α⦄, levels ≤ depth → s.length < bound →
    (schema.ofText s = .ok (a, rest)
      ↔ ∃ v, readValueFrom readNumber bound depth s = .ok (v, rest) ∧ schema.ofJson v = .ok a)

namespace Faithful

theorem mono {levels' : Nat} (faithful : schema.Faithful levels) (le : levels ≤ levels') :
    schema.Faithful levels' := fun _ _ _ _ _ enough fits =>
  faithful (Nat.le_trans le enough) fits

theorem consumes (faithful : schema.Faithful levels) : Consumes schema.ofText := by
  intro s a rest found
  obtain ⟨v, read, -⟩ := (faithful (Nat.le_refl _) (Nat.lt_succ_self _)).1 found
  exact consumes_readValueFrom consumes_readNumber _ _ s v rest read

theorem map (faithful : schema.Faithful levels) (f : α → β) : (schema.map f).Faithful levels := by
  intro bound depth s rest b enough fits
  simp only [map_ofJson_iff]
  constructor
  · intro found
    obtain ⟨a, found, same⟩ := Json.ok_of_map found
    obtain ⟨v, read, taken⟩ := (faithful enough fits).1 found
    exact ⟨v, read, a, taken, same⟩
  · rintro ⟨v, read, a, taken, rfl⟩
    simp only [Schema.map, (faithful enough fits).2 ⟨v, read, taken⟩]
    rfl

end Faithful

theorem scalar_ofText_ok {accept : Token → Except Mismatch α} {s rest : Bytes} {a : α} :
    (scalar accept).ofText s = .ok (a, rest)
      ↔ ∃ token, readToken s = .ok (token, rest) ∧ accept token = .ok a := by
  simp only [scalar]
  cases read : readToken s with
  | error fault => simp
  | ok r =>
    obtain ⟨token, t⟩ := r
    cases accepted : accept token <;> simp [accepted, and_comm]

/-- Data without parts, which are never an array or an object. -/
theorem faithful_scalar {accept : Token → Except Mismatch α}
    (partless : ∀ a, ¬(accept .openArray = .ok a ∨ accept .openObject = .ok a)) :
    (scalar accept).Faithful 0 := by
  intro bound depth s rest a enough fits
  have scalarToken {token : Token} (accepted : accept token = .ok a) :
      ¬(token = .openArray ∨ token = .openObject) := by
    rintro (rfl | rfl)
    · exact partless a (.inl accepted)
    · exact partless a (.inr accepted)
  simp only [scalar_ofText_ok, Json.readValueFrom_ok]
  constructor
  · rintro ⟨token, read, accepted⟩
    obtain ⟨v, -, value⟩ := Json.readBehind_scalar (scalarToken accepted)
    have behind := value bound (Json.partReader readNumber bound depth) rest
    refine ⟨v, ⟨token, rest, read, behind⟩, ?_⟩
    rw [← Json.token_of_readBehind behind] at accepted
    exact accepted
  · rintro ⟨v, ⟨token, t, read, behind⟩, accepted⟩
    replace accepted : accept token = .ok a := Json.token_of_readBehind behind ▸ accepted
    obtain ⟨w, -, value⟩ := Json.readBehind_scalar (scalarToken accepted)
    cases (value _ _ _).symm.trans behind
    exact ⟨token, read, accepted⟩

theorem faithful_integer (lowest highest : Int) (expected : String) :
    (integer lowest highest expected).Faithful 0 :=
  faithful_scalar fun _ => by simp

theorem faithful_bool : bool.Faithful 0 := faithful_scalar fun _ => by simp

theorem faithful_string : string.Faithful 0 := faithful_scalar fun _ => by simp

theorem readToken_of_n {s t : Bytes} (front : Json.skipSpace s = 0x6E :: t) :
    readToken s = (Json.readWord [0x75, 0x6C, 0x6C] t).map (.null, ·) := by
  rw [readToken, Json.readTokenWith, front]
  rfl

theorem front_of_null {s rest : Bytes} (read : readToken s = .ok (.null, rest)) :
    ∃ t, Json.skipSpace s = 0x6E :: t := by
  obtain ⟨b, t, front, rfl⟩ := Json.begins_of_readTokenWith read
  exact ⟨t, front⟩

theorem readValueFrom_null_iff {bound depth : Nat} {s rest : Bytes} :
    readValueFrom readNumber bound depth s = .ok (.null, rest) ↔ readToken s = .ok (.null, rest) := by
  constructor
  · intro found
    obtain ⟨token, t, read, behind⟩ := Json.readValueFrom_ok.1 found
    cases Json.token_of_readBehind behind
    cases behind
    exact read
  · intro read
    exact Json.readValueFrom_scalar read (fun _ _ _ => rfl) bound depth

theorem option_ofText_of_null {s t : Bytes} (front : Json.skipSpace s = 0x6E :: t) :
    schema.option.ofText s = (Json.readWord [0x75, 0x6C, 0x6C] t).map (none, ·) := by
  simp only [option, front]

theorem option_ofText_of_other {s : Bytes} (other : ∀ t, Json.skipSpace s ≠ 0x6E :: t) :
    schema.option.ofText s = (schema.ofText (Json.skipSpace s)).map fun (a, rest) => (some a, rest) := by
  simp only [option]

theorem option_ofJson_of_ne_null {v : Json} (given : v ≠ .null) :
    schema.option.ofJson v = (schema.ofJson v).map some := by
  cases v with
  | null => exact absurd rfl given
  | _ => rfl

theorem Faithful.option (faithful : schema.Faithful levels) : schema.option.Faithful levels := by
  intro bound depth s rest a? enough fits
  by_cases null : ∃ t, Json.skipSpace s = 0x6E :: t
  · obtain ⟨t, front⟩ := null
    have token := readToken_of_n front
    rw [option_ofText_of_null front]
    constructor
    · intro found
      obtain ⟨word, rfl⟩ := Json.ok_of_map_pair found
      rw [word] at token
      exact ⟨.null, readValueFrom_null_iff.2 token, rfl⟩
    · rintro ⟨v, read, taken⟩
      obtain ⟨token', u, read', behind⟩ := Json.readValueFrom_ok.1 read
      obtain ⟨word, rfl⟩ := Json.ok_of_map_pair (token.symm.trans read')
      cases behind
      cases taken
      rw [word]
      rfl
  · rw [option_ofText_of_other (not_exists.1 null), ← Json.readValueFrom_skipSpace]
    have fits' := Nat.lt_of_le_of_lt (Json.skipSpace_suffix s).length_le fits
    constructor
    · intro found
      obtain ⟨a, inside, rfl⟩ := Json.ok_of_map found
      obtain ⟨v, read, taken⟩ := (faithful enough fits').1 inside
      refine ⟨v, read, ?_⟩
      rw [option_ofJson_of_ne_null, taken]
      · rfl
      · rintro rfl
        obtain ⟨t, front⟩ := front_of_null (readValueFrom_null_iff.1 read)
        exact null ⟨t, Json.skipSpace_skipSpace s ▸ front⟩
    · rintro ⟨v, read, taken⟩
      have given : v ≠ .null := by
        rintro rfl
        obtain ⟨t, front⟩ := front_of_null (readValueFrom_null_iff.1 read)
        exact null ⟨t, Json.skipSpace_skipSpace s ▸ front⟩
      rw [option_ofJson_of_ne_null given] at taken
      obtain ⟨a, inside, rfl⟩ := map_ok_iff.1 taken
      rw [(faithful enough fits').2 ⟨v, read, inside⟩]
      rfl

theorem list_ofText_ok (faithful : schema.Faithful levels) {s rest : Bytes} {as : List α} :
    (list schema).ofText s = .ok (as, rest)
      ↔ ∃ t, readToken s = .ok (.openArray, t) ∧ Listed 0x5D schema.ofText true t as rest := by
  have items {t : Bytes} : Json.readItems schema.ofText (t.length + 1) true [] t = .ok (as, rest)
      ↔ Listed 0x5D schema.ofText true t as rest := by
    simp [Json.readItems_iff faithful.consumes (Nat.lt_succ_self _)]
  simp only [list]
  cases readToken s with
  | error fault => simp
  | ok r =>
    obtain ⟨token, t⟩ := r
    cases token <;> simp [items]

theorem Faithful.list (faithful : schema.Faithful levels) :
    (Schema.list schema).Faithful (levels + 1) := by
  intro bound depth s rest as enough fits
  obtain ⟨depth, rfl⟩ := Nat.exists_eq_add_of_le' (Nat.le_trans (Nat.le_add_left 1 levels) enough)
  have consumes := consumes_readValueFrom consumes_readNumber bound depth
  have items {t : Bytes} (within : t.length < bound) :
      Listed 0x5D schema.ofText true t as rest ↔ ∃ values,
        Listed 0x5D (readValueFrom readNumber bound depth) true t values rest
          ∧ List.Forall₂ (fun v a => schema.ofJson v = .ok a) values as :=
    Listed.decoded_iff consumes (fun short => faithful (Nat.le_of_succ_le_succ enough) short) within
  rw [list_ofText_ok faithful]
  simp only [Json.readValueFrom_ok]
  constructor
  · rintro ⟨t, opened, lists⟩
    have within := Json.length_lt_of_readToken opened
    obtain ⟨values, lists, taken⟩ := (items (by omega)).1 lists
    exact ⟨.array values, ⟨.openArray, t, opened,
      (Json.readBehind_array_iff consumes (by omega)).2 ⟨values, lists, rfl⟩⟩, mapM_ok_iff.2 taken⟩
  · rintro ⟨v, ⟨token, t, opened, behind⟩, taken⟩
    cases v with
    | array values =>
      cases Json.token_of_readBehind behind
      have within := Json.length_lt_of_readToken opened
      obtain ⟨_, lists, ⟨⟩⟩ := (Json.readBehind_array_iff consumes (by omega)).1 behind
      exact ⟨t, opened, (items (by omega)).2 ⟨values, lists, mapM_ok_iff.1 taken⟩⟩
    | _ => exact nomatch taken

end Schema

namespace Record

variable {σ : Type} {record : Record σ} {levels bound depth : Nat} {s rest : Bytes}

section array

theorem readEnd_iff {first : Bool} : readEnd s = .ok rest ↔ Json.next 0x5D first s = .ok (.closed rest) := by
  rw [readEnd, Json.next]
  cases Json.skipSpace s with
  | nil => simp
  | cons b t =>
    by_cases closes : b = 0x5D
    · simp [closes]
    · cases first with
      | true => simp [closes]
      | false =>
        simp only [closes, if_false, Bool.false_eq_true, reduceCtorEq, false_iff]
        split
        · split
          · simp
          · split <;> simp
        · simp

theorem readFields_iff {fields : List (Field σ)}
    (faithful : ∀ field ∈ fields, field.schema.Faithful levels) (enough : levels ≤ depth)
    {first : Bool} {state p : σ} (fits : s.length < bound) :
    readFields fields first state s = .ok (p, rest)
      ↔ ∃ items, Listed 0x5D (readValueFrom readNumber bound depth) first s items rest
        ∧ ∀ total, takeItems total fields items state = .ok p := by
  induction fields generalizing first state s with
  | nil =>
    rw [readFields]
    constructor
    · intro found
      obtain ⟨ended, rfl⟩ := Json.ok_of_map_pair found
      exact ⟨[], .closed (readEnd_iff.1 ended), fun _ => rfl⟩
    · rintro ⟨items, lists, taken⟩
      cases lists with
      | closed step =>
        cases taken 0
        rw [readEnd_iff.2 step]
        rfl
      | item => cases taken 0
  | cons field fields ih =>
    obtain ⟨this, others⟩ := List.forall_mem_cons.1 faithful
    have consumes := consumes_readValueFrom consumes_readNumber bound depth
    rw [readFields]
    constructor
    · intro found
      cases step : Json.next 0x5D first s with
      | error fault => rw [step] at found; cases found
      | ok step' =>
        rw [step] at found
        cases step' with
        | closed t =>
          cases found
          exact ⟨[], .closed step, fun _ => rfl⟩
        | item t =>
          have within := Json.length_le_of_item step
          dsimp only at found
          cases read : field.schema.ofText t with
          | error fault => rw [read] at found; cases found
          | ok r =>
            obtain ⟨set, u⟩ := r
            rw [read] at found
            obtain ⟨v, read, taken⟩ := (this enough (Nat.lt_of_le_of_lt within fits)).1 read
            have shorter := (consumes _ _ _ read).2
            replace found : readFields fields false (set state) u = .ok (p, rest) := found
            obtain ⟨items, lists, others⟩ := (ih others (by omega)).1 found
            refine ⟨v :: items, .item step read lists, fun total => ?_⟩
            rw [takeItems, taken]
            exact others total
    · rintro ⟨items, lists, taken⟩
      cases lists with
      | closed step =>
        cases taken 0
        rw [step]
      | @item _ _ t u _ v items step read lists =>
        have within := Json.length_le_of_item step
        have shorter := (consumes _ _ _ read).2
        cases decoded : field.schema.ofJson v with
        | error mismatch =>
          have refused := taken 0
          rw [takeItems, decoded] at refused
          cases refused
        | ok set =>
          have direct := (this enough (Nat.lt_of_le_of_lt within fits)).2 ⟨v, read, decoded⟩
          simp only [takeItems, decoded] at taken
          simp only [step, direct]
          exact (ih others (by omega)).2 ⟨items, lists, taken⟩

end array

section object

/-- Take a member into a record unless its name has been taken before. -/
def takeOnce (record : Record σ) (state : List String × σ) (entry : String × Json) :
    Except Mismatch (List String × σ) :=
  if state.1.contains entry.1 then .error (.duplicateField entry.1)
  else (record.takeMember state.2 entry.1 entry.2).map (entry.1 :: state.1, ·)

theorem takeOnce_iff {entries : List (String × Json)} {taken : List String} {state p : σ} :
    (∃ names, entries.foldlM record.takeOnce (taken, state) = .ok (names, p))
      ↔ (entries.map (·.1)).Nodup ∧ (∀ entry ∈ entries, entry.1 ∉ taken)
        ∧ record.takeEntries entries state = .ok p := by
  induction entries generalizing taken state with
  | nil => simp [takeEntries, pure, Except.pure]
  | cons entry entries ih =>
    rw [List.foldlM_cons, takeOnce]
    split
    · next again =>
      have again : entry.1 ∈ taken := by simpa using again
      refine iff_of_false (by rintro ⟨_, ⟨⟩⟩) ?_
      rintro ⟨-, fresh, -⟩
      exact fresh entry List.mem_cons_self again
    · next fresh =>
      have fresh : entry.1 ∉ taken := by simpa using fresh
      simp only [takeEntries, List.foldlM_cons]
      cases record.takeMember state entry.1 entry.2 with
      | error mismatch => exact iff_of_false (by rintro ⟨_, ⟨⟩⟩) (by rintro ⟨-, -, ⟨⟩⟩)
      | ok next =>
        refine ih.trans ⟨?_, ?_⟩
        · rintro ⟨distinct, others, folds⟩
          refine ⟨List.nodup_cons.2 ⟨fun mem => ?_, distinct⟩, List.forall_mem_cons.2 ⟨fresh, ?_⟩, folds⟩
          · obtain ⟨other, mem, same⟩ := List.mem_map.1 mem
            exact others other mem (same ▸ List.mem_cons_self)
          · exact fun other mem inside => others other mem (List.mem_cons_of_mem _ inside)
        · rintro ⟨distinct, others, folds⟩
          obtain ⟨unlike, distinct⟩ := List.nodup_cons.1 distinct
          refine ⟨distinct, fun other mem inside => ?_, folds⟩
          rcases List.mem_cons.1 inside with same | inside
          · exact unlike (List.mem_map.2 ⟨other, mem, same⟩)
          · exact others other (List.mem_cons_of_mem _ mem) inside

theorem behindColon_iff {α : Type} {schema : Schema α} (faithful : schema.Faithful levels)
    (enough : levels ≤ depth) (fits : s.length < bound) {a : α} :
    Json.behindColon schema.ofText s = .ok (a, rest)
      ↔ ∃ v, Json.behindColon (readValueFrom readNumber bound depth) s = .ok (v, rest)
        ∧ schema.ofJson v = .ok a := by
  unfold Json.behindColon
  cases colon : (Json.readColon s).map fun s => ((), s) with
  | error fault => simp [Json.andThen]
  | ok r =>
    have shorter := (Json.consumes_readColon s () r.2 colon).2
    exact faithful enough (Nat.lt_trans shorter fits)

theorem readMember_known {name : String} {field : Field σ} (found : record.field? name = some field)
    (state : List String × σ) (s : Bytes) : record.readMember state name s
      = if state.1.contains name then .error (.mismatch (.duplicateField name))
        else (Json.behindColon field.schema.ofText s).map fun (set, s) =>
          ((name :: state.1, set state.2), s) := by
  rw [readMember, found]
  refine if_congr Iff.rfl rfl ?_
  rw [Json.behindColon]
  cases Json.readColon s <;> rfl

theorem takeOnce_known {name : String} {field : Field σ} (found : record.field? name = some field)
    (state : List String × σ) (v : Json) : record.takeOnce state (name, v)
      = if state.1.contains name then .error (.duplicateField name)
        else (field.schema.ofJson v).map fun set => (name :: state.1, set state.2) := by
  rw [takeOnce, takeMember, found]
  refine if_congr Iff.rfl rfl ?_
  dsimp only
  cases field.schema.ofJson v <;> rfl

theorem takeOnce_unknown {name : String} (unknown : record.field? name = none)
    (strict : record.strict = true) (state : List String × σ) (v : Json) :
    ∃ mismatch, record.takeOnce state (name, v) = .error mismatch := by
  simp only [takeOnce, takeMember, unknown, strict, if_true]
  split
  · exact ⟨_, rfl⟩
  · exact ⟨_, rfl⟩

theorem readMember_iff (faithful : ∀ field ∈ record.fields, field.schema.Faithful levels)
    (enough : levels ≤ depth) (fits : s.length < bound) {name : String}
    (known : record.strict = true ∨ name ∈ record.fieldNames) {state state' : List String × σ} :
    record.readMember state name s = .ok (state', rest)
      ↔ ∃ v, Json.behindColon (readValueFrom readNumber bound depth) s = .ok (v, rest)
        ∧ record.takeOnce state (name, v) = .ok state' := by
  cases found : record.field? name with
  | none =>
    have unknown : name ∉ record.fieldNames := by simpa [field?, fieldNames] using found
    have strict := known.resolve_right unknown
    rw [readMember, found]
    simp only [strict, if_true]
    refine iff_of_false (by simp) ?_
    rintro ⟨v, -, taken⟩
    obtain ⟨mismatch, refused⟩ := takeOnce_unknown found strict state v
    cases refused.symm.trans taken
  | some field =>
    have this := faithful field (List.mem_of_find?_eq_some found)
    rw [readMember_known found]
    by_cases again : state.1.contains name = true
    · rw [if_pos again]
      refine iff_of_false (by simp) ?_
      rintro ⟨v, -, taken⟩
      rw [takeOnce_known found, if_pos again] at taken
      cases taken
    · rw [if_neg again]
      constructor
      · intro read
        obtain ⟨set, inside, rfl⟩ :=
          Json.ok_of_map (f := fun set : σ → σ => (name :: state.1, set state.2)) read
        obtain ⟨v, inside, taken⟩ := (behindColon_iff this enough fits).1 inside
        refine ⟨v, inside, ?_⟩
        rw [takeOnce_known found, if_neg again, taken]
        rfl
      · rintro ⟨v, read, taken⟩
        rw [takeOnce_known found, if_neg again] at taken
        obtain ⟨set, decoded, rfl⟩ := map_ok_iff.1 taken
        rw [(behindColon_iff this enough fits).2 ⟨v, read, decoded⟩]
        rfl

end object

section whole

variable {t : Bytes} {p : σ}

theorem takeItems_total {fields : List (Field σ)} {items : List Json} {state : σ} {total : Nat}
    (taken : takeItems total fields items state = .ok p) (total' : Nat) :
    takeItems total' fields items state = .ok p := by
  induction fields generalizing items state with
  | nil =>
    cases items with
    | nil => exact taken
    | cons item items => cases taken
  | cons field fields ih =>
    cases items with
    | nil => exact taken
    | cons item items =>
      rw [takeItems] at taken ⊢
      cases decoded : field.schema.ofJson item with
      | error mismatch => rw [decoded] at taken; cases taken
      | ok set =>
        rw [decoded] at taken
        exact ih taken

theorem ofText_array_iff (faithful : ∀ field ∈ record.fields, field.schema.Faithful levels)
    (enough : levels ≤ depth) (fits : t.length < bound)
    (opened : readToken s = .ok (.openArray, t)) :
    record.ofText s = .ok (p, rest)
      ↔ ∃ items, Listed 0x5D (readValueFrom readNumber bound depth) true t items rest
        ∧ record.ofJson (.array items) = .ok p := by
  have fields : record.ofText s = readFields record.fields true record.initial t := by
    rw [ofText, opened]
  rw [fields, readFields_iff faithful enough fits]
  exact exists_congr fun items => and_congr_right fun _ =>
    ⟨fun taken => taken items.length, takeItems_total⟩

theorem ofText_object (opened : readToken s = .ok (.openObject, t)) :
    record.ofText s = (Json.readMembers Json.readString record.readMember (t.length + 1) true
      ([], record.initial) t).map fun (state, s) => (state.2, s) := by
  rw [ofText, opened]

theorem listed_of_ofText (faithful : ∀ field ∈ record.fields, field.schema.Faithful levels)
    (enough : levels ≤ depth) (fits : t.length < bound) (strict : record.strict = true)
    (opened : readToken s = .ok (.openObject, t)) (found : record.ofText s = .ok (p, rest)) :
    ∃ entries, ListedMembers (readValueFrom readNumber bound depth) true t entries rest
      ∧ (entries.map (·.1)).Nodup ∧ record.takeEntries entries record.initial = .ok p := by
  rw [ofText_object opened] at found
  obtain ⟨⟨names, _⟩, read, rfl⟩ := Json.ok_of_map found
  obtain ⟨entries, lists, folds⟩ := Json.listed_of_readMembers record.takeOnce
    (consumes_readValueFrom consumes_readNumber bound depth)
    (fun short read => (readMember_iff faithful enough short (.inl strict)).1 read) fits read
  obtain ⟨distinct, -, taken⟩ := takeOnce_iff.1 ⟨names, folds⟩
  exact ⟨entries, lists, distinct, taken⟩

theorem ofText_of_listed (faithful : ∀ field ∈ record.fields, field.schema.Faithful levels)
    (enough : levels ≤ depth) (fits : t.length < bound)
    (opened : readToken s = .ok (.openObject, t)) {entries : List (String × Json)}
    (known : ∀ entry ∈ entries, record.strict = true ∨ entry.1 ∈ record.fieldNames)
    (lists : ListedMembers (readValueFrom readNumber bound depth) true t entries rest)
    (distinct : (entries.map (·.1)).Nodup)
    (taken : record.takeEntries entries record.initial = .ok p) :
    record.ofText s = .ok (p, rest) := by
  obtain ⟨names, folds⟩ := takeOnce_iff.2 ⟨distinct, fun _ _ => List.not_mem_nil, taken⟩
  have read := Json.readMembers_of_listed record.takeOnce
    (fun name => record.strict = true ∨ name ∈ record.fieldNames)
    (consumes_readValueFrom consumes_readNumber bound depth)
    (fun known short read stepped =>
      (readMember_iff faithful enough short known).2 ⟨_, read, stepped⟩)
    fits (Nat.lt_succ_self _) known lists folds
  rw [ofText_object opened, read]
  rfl

end whole

end Record

end AccelControl
