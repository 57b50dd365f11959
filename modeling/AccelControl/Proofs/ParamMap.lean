import AccelControl.Json.Shape
import AccelControl.ParamMap
import AccelControl.Proofs.Json.Normal

/-! Parameters are determined by the values of their names. -/

set_option autoImplicit false

namespace AccelControl.ParamMap

theorem ascending (m : ParamMap) : m.members.Ascending := m.canonical.1

theorem ext_get? {m n : ParamMap} (same : ∀ name, m.get? name = n.get? name) : m = n :=
  ext (m.ascending.ext n.ascending same)

theorem contains_iff {m : ParamMap} {name : String} :
    m.contains name = true ↔ name ∈ m.members.map (·.1) := by
  rw [contains, get?, Option.isSome_iff_exists, ← Members.contains_iff, Members.contains]
  simp

theorem get?_eq_none_of_not_contains {m : ParamMap} {name : String}
    (missing : ¬m.contains name = true) : m.get? name = none := by
  simpa [contains] using missing

section given

def given (entries : List (String × Option Json)) : List (String × Json) :=
  entries.filterMap fun entry => entry.2.map (entry.1, ·)

def ofGiven (entries : List (String × Option Json)) : ParamMap := ofMembers (given entries)

variable {entries : List (String × Option Json)} (distinct : (entries.map (·.1)).Nodup)
variable (canonical : ∀ entry ∈ entries, ∀ value, entry.2 = some value → value.Canonical)

include distinct canonical

theorem last?_given (name : String) :
    Members.last? name (Json.normalEntries (given entries)) = (Members.get? name entries).join := by
  induction entries with
  | nil => rfl
  | cons entry entries ih =>
    obtain ⟨other, value?⟩ := entry
    obtain ⟨first, distinct⟩ := List.nodup_cons.1 distinct
    obtain ⟨here, canonical⟩ := List.forall_mem_cons.1 canonical
    have ih := ih distinct canonical
    have absent (same : other = name) : Members.get? name entries = none :=
      Members.get?_eq_none fun entry mem again =>
        first (List.mem_map.2 ⟨entry, mem, again.trans same.symm⟩)
    rw [Members.get?_cons]
    cases value? with
    | none =>
      have skipped : given ((other, none) :: entries) = given entries := rfl
      rw [skipped, ih]
      split
      · next same => rw [absent same]; rfl
      · rfl
    | some value =>
      have kept : Json.normalEntries (given ((other, some value) :: entries))
          = (other, value.normalize) :: Json.normalEntries (given entries) := rfl
      rw [kept, Members.last?, ih, Json.normalize_of_canonical value (here value rfl)]
      split
      · next same => rw [absent same]; rfl
      · exact Option.or_none

theorem get?_ofGiven (name : String) :
    (ofGiven entries).get? name = (Members.get? name entries).join :=
  (Json.get?_normalizeMembers name _).trans (last?_given distinct canonical name)

end given

section Flat

/-- No value has parts or is a floating-point number. -/
def Flat (m : ParamMap) : Prop := ∀ member ∈ m.members, member.2.FloatFree ∧ member.2.depth = 0

theorem flat_empty : empty.Flat := List.forall_mem_nil _

variable {m : ParamMap}

theorem Flat.insert (flat : m.Flat) (name : String) {value : Json} (canonical : value.Canonical)
    (plain : value.FloatFree) (single : value.depth = 0) :
    (m.insert name value canonical).Flat := by
  intro member mem
  rcases Members.mem_insert mem with rfl | mem
  · exact ⟨plain, single⟩
  · exact flat member mem

theorem Flat.floatFree (flat : m.Flat) : m.toJson.FloatFree :=
  Json.floatFreeMembers_iff.2 fun member mem => (flat member mem).1

theorem Flat.depth_le (flat : m.Flat) : m.toJson.depth ≤ 1 :=
  Nat.succ_le_succ (Json.membersDepth_le_iff.2 fun member mem => Nat.le_of_eq (flat member mem).2)

end Flat

end AccelControl.ParamMap
