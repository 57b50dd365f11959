import AccelControl.Proofs.Schema.Direct

/-! Whole texts of records, read in both ways.

The two ways agree, except that an object with a repeated name is read by way of its value only. A text
whose members are known and fill every part is read in both ways, also where other names would be passed
over.
-/

set_option autoImplicit false

namespace AccelControl

open Json (writtenMembers? RepeatsName greatestDepth)

theorem Schema.parseValue_ok {α : Type} {schema : Schema α} {s : Bytes} {a : α} :
    schema.parseValue s = .ok a ↔ ∃ v, Json.parse s = .ok v ∧ schema.ofJson v = .ok a := by
  rw [parseValue]
  cases Json.parse s with
  | error fault => simp
  | ok v => cases read : schema.ofJson v <;> simp [read]

namespace Record

variable {σ : Type} {record : Record σ} {levels : Nat} {s : Bytes} {p : σ}
  {entries : List (String × Json)}

theorem parse_of_written (faithful : ∀ field ∈ record.fields, field.schema.Faithful levels)
    (enough : levels < greatestDepth) (written : writtenMembers? s = some entries)
    (known : ∀ entry ∈ entries, record.strict = true ∨ entry.1 ∈ record.fieldNames)
    (distinct : (entries.map (·.1)).Nodup)
    (taken : record.takeEntries entries record.initial = .ok p) :
    record.schema.parse s = .ok p := by
  obtain ⟨t, rest, opened, lists, whole⟩ := Json.writtenMembers?_iff.1 written
  have fits := Json.length_lt_of_readToken opened
  exact Json.readAll_ok.2 ⟨rest, ofText_of_listed faithful (Nat.le_pred_of_lt enough)
    (Nat.lt_succ_of_lt fits) opened known lists distinct taken, whole⟩

/-- What is read directly is an object without repeated names, or an array. -/
theorem parse_iff (faithful : ∀ field ∈ record.fields, field.schema.Faithful levels)
    (enough : levels < greatestDepth) (strict : record.strict = true) :
    record.schema.parse s = .ok p
      ↔ (∃ entries, writtenMembers? s = some entries ∧ (entries.map (·.1)).Nodup
          ∧ record.takeEntries entries record.initial = .ok p)
        ∨ ∃ items, Json.parse s = .ok (.array items) ∧ record.ofJson (.array items) = .ok p := by
  have enough' := Nat.le_pred_of_lt enough
  constructor
  · intro found
    obtain ⟨rest, found, whole⟩ := Json.readAll_ok.1 found
    replace found : record.ofText s = .ok (p, rest) := found
    cases opened : Json.readToken s with
    | error fault =>
      rw [ofText, opened] at found
      cases found
    | ok r =>
      obtain ⟨token, t⟩ := r
      have fits := Nat.lt_succ_of_lt (Json.length_lt_of_readToken opened)
      cases token with
      | openObject =>
        obtain ⟨entries, lists, distinct, taken⟩ :=
          listed_of_ofText faithful enough' fits strict opened found
        exact .inl ⟨entries, Json.writtenMembers?_iff.2 ⟨t, rest, opened, lists, whole⟩, distinct, taken⟩
      | openArray =>
        obtain ⟨items, lists, taken⟩ := (ofText_array_iff faithful enough' fits opened).1 found
        exact .inr ⟨items, Json.parse_array_iff.2 ⟨t, rest, opened, lists, whole⟩, taken⟩
      | _ =>
        rw [ofText, opened] at found
        cases found
  · rintro (⟨entries, written, distinct, taken⟩ | ⟨items, read, taken⟩)
    · exact parse_of_written faithful enough written (fun _ _ => .inl strict) distinct taken
    · obtain ⟨t, rest, opened, lists, whole⟩ := Json.parse_array_iff.1 read
      have fits := Nat.lt_succ_of_lt (Json.length_lt_of_readToken opened)
      exact Json.readAll_ok.2
        ⟨rest, (ofText_array_iff faithful enough' fits opened).2 ⟨items, lists, taken⟩, whole⟩

theorem parseValue_iff : record.schema.parseValue s = .ok p
      ↔ (∃ entries, writtenMembers? s = some entries
          ∧ record.takeEntries (Members.ofEntries entries) record.initial = .ok p)
        ∨ ∃ items, Json.parse s = .ok (.array items) ∧ record.ofJson (.array items) = .ok p := by
  rw [Schema.parseValue_ok]
  constructor
  · rintro ⟨v, read, taken⟩
    cases v with
    | object members =>
      obtain ⟨entries, written, rfl⟩ := Json.parse_object_iff.1 read
      exact .inl ⟨entries, written, taken⟩
    | array items => exact .inr ⟨items, read, taken⟩
    | _ => exact nomatch taken
  · rintro (⟨entries, written, taken⟩ | ⟨items, read, taken⟩)
    · exact ⟨_, Json.parse_object_iff.2 ⟨entries, written, rfl⟩, taken⟩
    · exact ⟨_, read, taken⟩

namespace LaidOut

variable {slots : List (Slot σ)}

/-- Entries with distinct names are taken alike in every order. -/
theorem takeEntries_ofEntries (laidOut : record.LaidOut slots) (distinct : (entries.map (·.1)).Nodup)
    {state : σ} : record.takeEntries (Members.ofEntries entries) state = .ok p
      ↔ record.takeEntries entries state = .ok p := by
  have ascending := Members.ascending_ofEntries entries
  have same := Members.get?_ofEntries distinct
  refine (laidOut.foldlM_takeMember_iff ascending.nodup).trans
    (Iff.trans (and_congr ?_ ?_) (laidOut.foldlM_takeMember_iff distinct).symm)
  · refine imp_congr_right fun _ => ⟨fun known entry mem => ?_, fun known entry mem => ?_⟩
    · have found := Members.get?_of_mem distinct mem
      rw [← same] at found
      exact known _ (Members.mem_of_get? found)
    · have found := Members.get?_of_mem ascending.nodup mem
      rw [same] at found
      exact known _ (Members.mem_of_get? found)
  · exact forall₂_congr fun slot mem => by rw [Slot.read, Slot.read, same]

theorem faithful_fields (laidOut : record.LaidOut slots)
    (faithful : ∀ slot ∈ slots, slot.schema.Faithful levels) :
    ∀ field ∈ record.fields, field.schema.Faithful levels := by
  rw [laidOut.fields]
  exact List.forall_mem_map.2 fun slot mem => (faithful slot mem).map slot.set

/-- A text is read directly exactly if its value is read and no name occurs twice. -/
theorem parse_iff_parseValue (laidOut : record.LaidOut slots)
    (faithful : ∀ slot ∈ slots, slot.schema.Faithful levels) (enough : levels < greatestDepth)
    (strict : record.strict = true) : record.schema.parse s = .ok p
      ↔ record.schema.parseValue s = .ok p ∧ ¬RepeatsName s := by
  rw [parse_iff (laidOut.faithful_fields faithful) enough strict, parseValue_iff]
  constructor
  · rintro (⟨entries, written, distinct, taken⟩ | ⟨items, read, taken⟩)
    · exact ⟨.inl ⟨entries, written, (laidOut.takeEntries_ofEntries distinct).2 taken⟩,
        fun again => (Json.repeatsName_iff written).1 again distinct⟩
    · exact ⟨.inr ⟨items, read, taken⟩, Json.not_repeatsName_of_array read⟩
  · rintro ⟨⟨entries, written, taken⟩ | ⟨items, read, taken⟩, unrepeated⟩
    · rw [Json.repeatsName_iff written, not_not] at unrepeated
      exact .inl ⟨entries, written, unrepeated, (laidOut.takeEntries_ofEntries unrepeated).1 taken⟩
    · exact .inr ⟨items, read, taken⟩

theorem ofJson_ofEntries_iff (laidOut : record.LaidOut slots) (distinct : (entries.map (·.1)).Nodup) :
    record.schema.ofJson (.object (Members.ofEntries entries)) = .ok p
      ↔ record.takeEntries entries record.initial = .ok p :=
  laidOut.takeEntries_ofEntries distinct

theorem takeEntries_of_parts (laidOut : record.LaidOut slots) (distinct : (entries.map (·.1)).Nodup)
    (known : ∀ entry ∈ entries, entry.1 ∈ record.fieldNames)
    (parts : ∀ slot ∈ slots, slot.read record.initial entries = .ok (slot.get p)) :
    record.takeEntries entries record.initial = .ok p :=
  (laidOut.foldlM_takeMember_iff distinct).2 ⟨fun _ => known, parts⟩

/-- A text whose members are fields, each given once, is read in both ways. -/
theorem reads_written (laidOut : record.LaidOut slots)
    (faithful : ∀ slot ∈ slots, slot.schema.Faithful levels) (enough : levels < greatestDepth)
    (written : writtenMembers? s = some entries) (distinct : (entries.map (·.1)).Nodup)
    (known : ∀ entry ∈ entries, entry.1 ∈ record.fieldNames)
    (taken : record.takeEntries entries record.initial = .ok p) :
    record.schema.parse s = .ok p ∧ record.schema.parseValue s = .ok p := by
  refine ⟨parse_of_written (laidOut.faithful_fields faithful) enough written
    (fun entry mem => .inr (known entry mem)) distinct taken, ?_⟩
  exact parseValue_iff.2 (.inl ⟨entries, written, (laidOut.takeEntries_ofEntries distinct).2 taken⟩)

/-- The text of an object is read in both ways if its members, in whichever order, fill the parts. -/
theorem reads_text (laidOut : record.LaidOut slots)
    (faithful : ∀ slot ∈ slots, slot.schema.Faithful levels) (enough : levels < greatestDepth)
    {members : List (String × Json)} (distinct : (members.map (·.1)).Nodup)
    (same : ∀ name, Members.get? name members = Members.get? name entries)
    (known : ∀ entry ∈ entries, entry.1 ∈ record.fieldNames)
    (storable : ∀ entry ∈ entries, entry.2.Storable)
    (parts : ∀ slot ∈ slots, slot.read record.initial entries = .ok (slot.get p)) :
    record.schema.parse (Json.object members).bytes = .ok p
      ∧ record.schema.parseValue (Json.object members).bytes = .ok p := by
  have given : ∀ member ∈ members, member ∈ entries := fun member mem =>
    Members.mem_of_get? (same member.1 ▸ Members.get?_of_mem distinct mem)
  have written := Json.writtenMembers?_storable fun member mem => storable member (given member mem)
  have known' : ∀ member ∈ members, member.1 ∈ record.fieldNames := fun member mem =>
    known member (given member mem)
  refine laidOut.reads_written faithful enough written distinct known'
    (laidOut.takeEntries_of_parts distinct known' fun slot mem => ?_)
  rw [Slot.read, same]
  exact parts slot mem

/-- What is saved is read back: from its text in the order of the entries, from the text of its value, and
from the value itself. -/
theorem reads_saved (laidOut : record.LaidOut slots)
    (faithful : ∀ slot ∈ slots, slot.schema.Faithful levels) (enough : levels < greatestDepth)
    (distinct : (entries.map (·.1)).Nodup) (known : ∀ entry ∈ entries, entry.1 ∈ record.fieldNames)
    (storable : ∀ entry ∈ entries, entry.2.Storable)
    (parts : ∀ slot ∈ slots, slot.read record.initial entries = .ok (slot.get p)) :
    let saved := Json.object (Members.ofEntries entries)
    (record.schema.parse (Json.object entries).bytes = .ok p
        ∧ record.schema.parseValue (Json.object entries).bytes = .ok p)
      ∧ (record.schema.parse saved.bytes = .ok p ∧ record.schema.parseValue saved.bytes = .ok p)
      ∧ record.schema.ofJson saved = .ok p := by
  have sorted := Members.ascending_ofEntries entries
  refine ⟨?_, ?_, ?_⟩
  · exact laidOut.reads_text faithful enough distinct (fun _ => rfl) known storable parts
  · exact laidOut.reads_text faithful enough sorted.nodup (Members.get?_ofEntries distinct) known storable
      parts
  · exact (laidOut.ofJson_ofEntries_iff distinct).2 (laidOut.takeEntries_of_parts distinct known parts)

end LaidOut

end Record

end AccelControl
