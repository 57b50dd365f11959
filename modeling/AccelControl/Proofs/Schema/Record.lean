import AccelControl.Proofs.Json.Normal
import AccelControl.Rpc.Response
import AccelControl.Schema.Record
import Mathlib.Data.List.Nodup

/-! What the members of an object make of a record.

A record is laid out in slots when each of its fields sets a part of its own and there are no other
parts. Members with distinct names then fill the slots independently of each other. Main statement:
an object reads as a record exactly if no name is refused and each part of the record is what its
member says, or the initial part where the member is missing.
-/

set_option autoImplicit false

namespace AccelControl

variable {σ : Type}

structure Slot (σ : Type) where
  Part : Type
  name : String
  schema : Schema Part
  get : σ → Part
  set : Part → σ → σ

namespace Slot

def field (slot : Slot σ) : Field σ := .of slot.name slot.schema slot.set

/-- The part that members give, or that the state has already. -/
def read (slot : Slot σ) (state : σ) (members : Members Json) : Except Mismatch slot.Part :=
  slot.schema.orElse (slot.get state) (members.get? slot.name)

theorem read_cons_of_ne {slot : Slot σ} {name : String} (different : name ≠ slot.name)
    (state : σ) (value : Json) (members : Members Json) :
    slot.read state ((name, value) :: members) = slot.read state members := by
  rw [read, Members.get?_cons, if_neg different, ← read]

end Slot

/-- A null or missing member, and only such a one, gives nothing. -/
theorem Schema.option_orElse_eq_none_iff {α : Type} {schema : Schema α} {member : Option Json} :
    schema.option.orElse none member = .ok none ↔ member = none ∨ member = some .null := by
  cases member with
  | none => simp [orElse]
  | some v =>
    cases v with
    | null => simp [orElse, Schema.option]
    | _ =>
      simp only [orElse, Schema.option, reduceCtorEq, Option.some.injEq, or_self, iff_false]
      cases schema.ofJson _ <;> simp [Except.map]

namespace Record

/-- Each field of a record sets one part, and the record is made up of these parts. -/
structure LaidOut (record : Record σ) (slots : List (Slot σ)) : Prop where
  fields : record.fields = slots.map Slot.field
  distinct : (slots.map Slot.name).Nodup
  get_set : ∀ slot ∈ slots, ∀ part state, slot.get (slot.set part state) = part
  get_set_of_ne : ∀ slot ∈ slots, ∀ other ∈ slots, slot.name ≠ other.name →
    ∀ part state, slot.get (other.set part state) = slot.get state
  ext : ∀ p q, (∀ slot ∈ slots, slot.get p = slot.get q) → p = q

namespace LaidOut

variable {record : Record σ} {slots : List (Slot σ)}

theorem fieldNames (laidOut : record.LaidOut slots) : record.fieldNames = slots.map Slot.name := by
  rw [Record.fieldNames, laidOut.fields, List.map_map]
  rfl

theorem eq_of_name_eq (laidOut : record.LaidOut slots) {slot other : Slot σ} (mem : slot ∈ slots)
    (mem' : other ∈ slots) (same : slot.name = other.name) : slot = other :=
  List.inj_on_of_nodup_map laidOut.distinct mem mem' same

theorem field?_name (laidOut : record.LaidOut slots) {slot : Slot σ} (mem : slot ∈ slots) :
    record.field? slot.name = some slot.field := by
  rw [field?, laidOut.fields, List.find?_map]
  cases found : slots.find? ((fun field => field.name == slot.name) ∘ Slot.field) with
  | none => exact absurd (List.find?_eq_none.1 found slot mem) (by simp [Slot.field, Field.of])
  | some other =>
    have same : other.name = slot.name := by
      simpa [Slot.field, Field.of] using List.find?_some found
    rw [laidOut.eq_of_name_eq (List.mem_of_find?_eq_some found) mem same]
    rfl

theorem takeMember_name (laidOut : record.LaidOut slots) {slot : Slot σ} (mem : slot ∈ slots)
    (state : σ) (value : Json) :
    record.takeMember state slot.name value
      = (slot.schema.ofJson value).map (slot.set · state) := by
  simp only [takeMember, laidOut.field?_name mem, Slot.field, Field.of, Schema.map]
  cases slot.schema.ofJson value <;> rfl

-- The member of a slot leaves the others as they are, and no later member has its name.
theorem read_set (laidOut : record.LaidOut slots) {slot other : Slot σ} (mem : slot ∈ slots)
    (mem' : other ∈ slots) {value : Json} {part : slot.Part}
    (reads : slot.schema.ofJson value = .ok part) {members : Members Json}
    (last : members.get? slot.name = none) (state : σ) :
    other.read (slot.set part state) members
      = other.read state ((slot.name, value) :: members) := by
  by_cases same : other.name = slot.name
  · cases laidOut.eq_of_name_eq mem' mem same
    rw [Slot.read, Slot.read, last, Members.get?_head, laidOut.get_set _ mem, Schema.orElse,
      Schema.orElse, reads]
  · rw [Slot.read_cons_of_ne (Ne.symm same), Slot.read, Slot.read,
      laidOut.get_set_of_ne _ mem' _ mem same]

theorem takeMember_unknown {name : String} (unknown : name ∉ record.fieldNames) (state : σ)
    (value : Json) : record.takeMember state name value
      = if record.strict then .error (.unknownField name record.fieldNames) else .ok state := by
  have none : record.field? name = none := by simpa [field?, Record.fieldNames] using unknown
  rw [takeMember, none]

theorem takeMember_ok (laidOut : record.LaidOut slots) {name : String} {value : Json}
    {members : Members Json} (last : members.get? name = none) {state next : σ}
    (taken : record.takeMember state name value = .ok next) :
    (record.strict = true → name ∈ record.fieldNames)
      ∧ ∀ slot ∈ slots, slot.read next members = slot.read state ((name, value) :: members) := by
  by_cases known : name ∈ record.fieldNames
  · obtain ⟨slot, mem, rfl⟩ := List.mem_map.1 (laidOut.fieldNames ▸ known)
    rw [laidOut.takeMember_name mem] at taken
    cases reads : slot.schema.ofJson value with
    | error mismatch =>
      rw [reads] at taken
      cases taken
    | ok part =>
      rw [reads] at taken
      cases taken
      exact ⟨fun _ => known, fun other mem' => laidOut.read_set mem mem' reads last state⟩
  · rw [takeMember_unknown known] at taken
    split at taken
    · cases taken
    · next lax =>
      cases taken
      refine ⟨fun strict => absurd strict lax, fun slot mem => ?_⟩
      have different : name ≠ slot.name := fun same =>
        known (laidOut.fieldNames ▸ same ▸ List.mem_map_of_mem mem)
      rw [Slot.read_cons_of_ne different]

theorem takeMember_error (laidOut : record.LaidOut slots) {state : σ} {name : String}
    {value : Json} {mismatch : Mismatch}
    (refused : record.takeMember state name value = .error mismatch) (members : Members Json) :
    (record.strict = true ∧ name ∉ record.fieldNames)
      ∨ ∃ slot ∈ slots, slot.read state ((name, value) :: members) = .error mismatch := by
  by_cases known : name ∈ record.fieldNames
  · obtain ⟨slot, mem, rfl⟩ := List.mem_map.1 (laidOut.fieldNames ▸ known)
    rw [laidOut.takeMember_name mem] at refused
    refine .inr ⟨slot, mem, ?_⟩
    rw [Slot.read, Members.get?_head, Schema.orElse]
    cases reads : slot.schema.ofJson value with
    | error mismatch' =>
      rw [reads] at refused
      cases refused
      rfl
    | ok part =>
      rw [reads] at refused
      cases refused
  · rw [takeMember_unknown known] at refused
    split at refused
    · next strict => exact .inl ⟨strict, known⟩
    · cases refused

theorem foldlM_takeMember_iff (laidOut : record.LaidOut slots) {members : Members Json}
    (distinct : (members.map (·.1)).Nodup) {state p : σ} :
    members.foldlM (fun state member => record.takeMember state member.1 member.2) state = .ok p
      ↔ (record.strict = true → ∀ member ∈ members, member.1 ∈ record.fieldNames)
        ∧ ∀ slot ∈ slots, slot.read state members = .ok (slot.get p) := by
  induction members generalizing state with
  | nil =>
    constructor
    · rintro ⟨⟩
      exact ⟨fun _ => List.forall_mem_nil _, fun _ _ => rfl⟩
    · rintro ⟨-, parts⟩
      rw [laidOut.ext state p fun slot mem => Except.ok.inj (parts slot mem)]
      rfl
  | cons member members ih =>
    rw [List.foldlM_cons]
    cases taken : record.takeMember state member.1 member.2 with
    | error mismatch =>
      refine ⟨nofun, fun ⟨names, parts⟩ => ?_⟩
      rcases laidOut.takeMember_error taken members with ⟨strict, unknown⟩ | ⟨slot, mem, refused⟩
      · exact absurd (names strict member List.mem_cons_self) unknown
      · exact nomatch refused.symm.trans (parts slot mem)
    | ok next =>
      obtain ⟨known, same⟩ := laidOut.takeMember_ok (Members.get?_tail distinct) taken
      refine (ih (List.nodup_cons.1 distinct).2).trans (and_congr ?_ ?_)
      · simp only [List.forall_mem_cons, forall_and, and_iff_right known]
      · exact forall₂_congr fun slot mem => by rw [same slot mem]

/-- An object reads as a record exactly if no name is refused and each part is what its member
says, or initial where there is none. -/
theorem ofJson_object_iff (laidOut : record.LaidOut slots) {members : Members Json}
    (ascending : members.Ascending) {p : σ} :
    record.ofJson (.object members) = .ok p
      ↔ (record.strict = true → ∀ member ∈ members, member.1 ∈ record.fieldNames)
        ∧ ∀ slot ∈ slots, slot.read record.initial members = .ok (slot.get p) :=
  laidOut.foldlM_takeMember_iff ascending.nodup

end LaidOut

end Record

end AccelControl
