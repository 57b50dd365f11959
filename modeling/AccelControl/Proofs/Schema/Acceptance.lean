import AccelControl.Proofs.Schema.Record
import AccelControl.Proofs.Schema.Scalar
import Mathlib.Data.List.Forall2

/-! What a schema accepts.

Data of most shapes have only one form as a value, and no other value is accepted. A record accepts
entries of which no name is refused and which give each part something that its schema accepts; the
items of an array are entries with the names of the fields, in their declared order.
-/

set_option autoImplicit false

namespace AccelControl

namespace Schema

variable {α : Type} {schema : Schema α} {toJson : α → Json}

def Reads (schema : Schema α) (toJson : α → Json) : Prop :=
  ∀ v a, schema.ofJson v = .ok a ↔ v = toJson a

theorem Reads.injective (reads : schema.Reads toJson) : Function.Injective toJson := by
  intro a b same
  have read := (reads (toJson a) a).2 rfl
  rw [same, (reads (toJson b) b).2 rfl] at read
  exact (Except.ok.inj read).symm

theorem reads_string : string.Reads .string := fun _ _ => string_ofJson_iff

theorem reads_bool : bool.Reads .bool := by
  intro v b
  cases v <;> simp [bool, scalar, Json.token]

/-- Integers up to a bound that stand for words. -/
theorem reads_word {highest : Int} {expected : String} {ofInt : Int → α} {word : α → UInt64}
    (fits : ∀ a, ((word a).toNat : Int) ≤ highest) (back : ∀ a, ofInt (word a).toNat = a)
    (again : ∀ i, 0 ≤ i → i ≤ highest → ((word (ofInt i)).toNat : Int) = i) :
    ((integer 0 highest expected).map ofInt).Reads fun a => .ofUInt64 (word a) := by
  intro v a
  rw [map_ofJson_iff]
  constructor
  · rintro ⟨n, read, rfl⟩
    obtain ⟨i, rfl, rfl, lower, upper⟩ := integer_ofJson_iff.1 read
    have same : i = .ofUInt64 (word (ofInt i.value)) := by
      cases i
      simp only [Json.Integer.ofUInt64, Json.Integer.mk.injEq]
      exact (again _ lower upper).symm
    exact congrArg (Json.number ∘ Json.Number.integer) same
  · rintro rfl
    exact ⟨(word a).toNat,
      integer_ofJson_iff.2 ⟨.ofUInt64 (word a), rfl, rfl, Int.natCast_nonneg _, fits a⟩, back a⟩

theorem mapM_ok_iff {ε β γ : Type} {f : β → Except ε γ} {items : List β} {results : List γ} :
    items.mapM f = .ok results ↔ List.Forall₂ (fun item result => f item = .ok result) items results := by
  induction items generalizing results with
  | nil =>
    rw [List.mapM_nil, List.forall₂_nil_left_iff]
    exact ⟨fun same => (Except.ok.inj same).symm, congrArg _ ∘ Eq.symm⟩
  | cons item items ih =>
    rw [List.mapM_cons, bind_ok_iff, List.forall₂_cons_left_iff]
    refine exists_congr fun result => ?_
    simp only [bind_ok_iff, ih]
    constructor
    · rintro ⟨first, others, rest, ⟨⟩⟩
      exact ⟨others, first, rest, rfl⟩
    · rintro ⟨others, first, rest, rfl⟩
      exact ⟨first, others, rest, rfl⟩

theorem Reads.list (reads : schema.Reads toJson) :
    (list schema).Reads fun as => .array (as.map toJson) := by
  intro v as
  cases v with
  | array items =>
    simp only [Schema.list, mapM_ok_iff, reads _ _, Json.array.injEq]
    rw [← List.forall₂_map_right_iff (R := Eq), List.forall₂_eq_eq_eq]
  | _ => simp [Schema.list]

theorem Reads.option (reads : schema.Reads toJson) (present : ∀ a, toJson a ≠ .null) :
    schema.option.Reads (Json.ofOption toJson) := by
  intro v a?
  by_cases null : v = .null
  · subst null
    cases a? with
    | none => simp [Schema.option, Json.ofOption]
    | some a => simp [Schema.option, Json.ofOption, (present a).symm]
  · have given : schema.option.ofJson v = (schema.ofJson v).map some := by
      cases v with
      | null => exact absurd rfl null
      | _ => rfl
    rw [given, map_ok_iff]
    cases a? with
    | none => simp [Json.ofOption, null]
    | some a => simp [Json.ofOption, reads v]

theorem Reads.eq_ofOption_iff (reads : schema.Reads toJson) (present : ∀ a, toJson a ≠ .null) {a : α}
    {a? : Option α} : toJson a = .ofOption toJson a? ↔ a? = some a := by
  cases a? with
  | none => simp [Json.ofOption, present a]
  | some b => simp [Json.ofOption, reads.injective.eq_iff, eq_comm]

/-- A member that may be missing or null. -/
theorem Reads.orElse_none_iff (reads : schema.Reads toJson) (present : ∀ a, toJson a ≠ .null)
    {member : Option Json} {a? : Option α} :
    schema.option.orElse none member = .ok a?
      ↔ member.getD .null = Json.ofOption toJson a? := by
  cases member with
  | none =>
    cases a? with
    | none => simp [orElse, Json.ofOption]
    | some a => simp [orElse, Json.ofOption, (present a).symm]
  | some v => exact reads.option present v a?

end Schema

namespace Record

variable {σ : Type} {record : Record σ}

/-- The entries that a value gives: the members of an object, or the items of an array under the names
of the fields, unless there are more items than fields. -/
def entries? (record : Record σ) : Json → Option (List (String × Json))
  | .object members => some members
  | .array items =>
    if items.length ≤ record.fieldNames.length then some (record.fieldNames.zip items) else none
  | .null | .bool _ | .number _ | .string _ => none

def takeEntries (record : Record σ) (entries : List (String × Json)) (state : σ) :
    Except Mismatch σ :=
  entries.foldlM (fun state entry => record.takeMember state entry.1 entry.2) state

theorem takeItems_iff {fields : List (Field σ)}
    (own : ∀ field ∈ fields, record.field? field.name = some field) {total : Nat}
    {items : List Json} {state p : σ} :
    takeItems total fields items state = .ok p
      ↔ items.length ≤ fields.length
        ∧ record.takeEntries ((fields.map (·.name)).zip items) state = .ok p := by
  induction fields generalizing items state with
  | nil =>
    cases items with
    | nil => exact ⟨fun same => ⟨Nat.le_refl _, same⟩, And.right⟩
    | cons item items => simp [takeItems]
  | cons field fields ih =>
    cases items with
    | nil => exact ⟨fun same => ⟨Nat.zero_le _, same⟩, And.right⟩
    | cons item items =>
      obtain ⟨this, others⟩ := List.forall_mem_cons.1 own
      simp only [takeItems, takeEntries, takeMember, List.map_cons, List.zip_cons_cons,
        List.foldlM_cons, this, List.length_cons, Nat.add_le_add_iff_right]
      cases field.schema.ofJson item with
      | error mismatch => simp [Except.map, bind, Except.bind]
      | ok set => exact ih others

namespace LaidOut

variable {slots : List (Slot σ)}

theorem ofJson_iff (laidOut : record.LaidOut slots) {v : Json} {p : σ} :
    record.ofJson v = .ok p
      ↔ ∃ entries, record.entries? v = some entries
        ∧ record.takeEntries entries record.initial = .ok p := by
  cases v with
  | object members => simp [Record.ofJson, entries?, takeEntries]
  | array items =>
    have own : ∀ field ∈ record.fields, record.field? field.name = some field := by
      rw [laidOut.fields]
      exact List.forall_mem_map.2 fun slot mem => laidOut.field?_name mem
    refine (takeItems_iff own).trans ?_
    rw [entries?, Record.fieldNames, List.length_map]
    split
    · next fits => simp [fits]
    · next exceeds => simp [exceeds]
  | _ => simp [Record.ofJson, entries?]

theorem distinct_fieldNames (laidOut : record.LaidOut slots) : record.fieldNames.Nodup := by
  rw [laidOut.fieldNames]
  exact laidOut.distinct

theorem distinct_entries (laidOut : record.LaidOut slots) {v : Json} (canonical : v.Canonical)
    {entries : List (String × Json)} (gives : record.entries? v = some entries) :
    (entries.map (·.1)).Nodup := by
  cases v with
  | object members =>
    cases gives
    exact Members.Ascending.nodup canonical.1
  | array items =>
    rw [entries?, Option.ite_none_right_eq_some] at gives
    obtain ⟨fits, ⟨⟩⟩ := gives
    have shorter : (record.fieldNames.take items.length).length ≤ items.length :=
      List.length_take_le _ _
    rw [List.zip_eq_zip_take_min, Nat.min_eq_right fits, List.take_length,
      List.map_fst_zip shorter]
    exact laidOut.distinct_fieldNames.sublist (List.take_sublist _ _)
  | _ => exact nomatch gives

theorem takeEntries_error (laidOut : record.LaidOut slots) {entries : List (String × Json)}
    (distinct : (entries.map (·.1)).Nodup) {state : σ} {mismatch : Mismatch}
    (refused : record.takeEntries entries state = .error mismatch) :
    (record.strict = true ∧ ∃ entry ∈ entries, entry.1 ∉ record.fieldNames)
      ∨ ∃ slot ∈ slots, slot.read state entries = .error mismatch := by
  induction entries generalizing state with
  | nil => exact nomatch refused
  | cons entry entries ih =>
    rw [takeEntries, List.foldlM_cons] at refused
    cases taken : record.takeMember state entry.1 entry.2 with
    | error first =>
      rw [taken] at refused
      cases refused
      exact (laidOut.takeMember_error taken entries).imp_left fun ⟨strict, unknown⟩ =>
        ⟨strict, entry, List.mem_cons_self, unknown⟩
    | ok next =>
      rw [taken] at refused
      have same := (laidOut.takeMember_ok (Members.get?_tail distinct) taken).2
      rcases ih (List.nodup_cons.1 distinct).2 refused with
        ⟨strict, other, mem, unknown⟩ | ⟨slot, mem, later⟩
      · exact .inl ⟨strict, other, List.mem_cons_of_mem entry mem, unknown⟩
      · exact .inr ⟨slot, mem, (same slot mem).symm.trans later⟩

/-- A value reads as a record exactly if no name that it gives is refused and each part is what its
entry says, or initial where there is none. -/
theorem reads_iff (laidOut : record.LaidOut slots) {v : Json} (canonical : v.Canonical) {p : σ} :
    record.ofJson v = .ok p
      ↔ ∃ entries, record.entries? v = some entries
        ∧ (record.strict = true → ∀ entry ∈ entries, entry.1 ∈ record.fieldNames)
        ∧ ∀ slot ∈ slots, slot.read record.initial entries = .ok (slot.get p) :=
  laidOut.ofJson_iff.trans <| exists_congr fun _ => and_congr_right fun gives =>
    laidOut.foldlM_takeMember_iff (laidOut.distinct_entries canonical gives)

/-- A value is accepted exactly if no name that it gives is refused and each entry is accepted by
itself. -/
theorem accepts_iff (laidOut : record.LaidOut slots) {v : Json} (canonical : v.Canonical) :
    (∃ p, record.ofJson v = .ok p)
      ↔ ∃ entries, record.entries? v = some entries
        ∧ (record.strict = true → ∀ entry ∈ entries, entry.1 ∈ record.fieldNames)
        ∧ ∀ slot ∈ slots, ∃ part, slot.read record.initial entries = .ok part := by
  constructor
  · rintro ⟨p, read⟩
    obtain ⟨entries, gives, known, parts⟩ := (laidOut.reads_iff canonical).1 read
    exact ⟨entries, gives, known, fun slot mem => ⟨slot.get p, parts slot mem⟩⟩
  · rintro ⟨entries, gives, known, parts⟩
    cases taken : record.takeEntries entries record.initial with
    | ok p => exact ⟨p, laidOut.ofJson_iff.2 ⟨entries, gives, taken⟩⟩
    | error mismatch =>
      rcases laidOut.takeEntries_error (laidOut.distinct_entries canonical gives) taken with
        ⟨strict, entry, mem, unknown⟩ | ⟨slot, mem, refused⟩
      · exact absurd (known strict entry mem) unknown
      · obtain ⟨part, read⟩ := parts slot mem
        exact nomatch refused.symm.trans read

end LaidOut

end Record

end AccelControl
