import AccelControl.Json.Basic

/-! Canonical JSON values, and the canonical value that any value denotes. -/

set_option autoImplicit false

namespace AccelControl.Json

theorem canonicalItems_iff {items : List Json} :
    CanonicalItems items ↔ ∀ item ∈ items, item.Canonical := by
  induction items with
  | nil => simp [CanonicalItems]
  | cons item rest ih => simp [CanonicalItems, ih]

theorem canonicalMembers_iff {members : List (String × Json)} :
    CanonicalMembers members ↔ ∀ member ∈ members, member.2.Canonical := by
  induction members with
  | nil => simp [CanonicalMembers]
  | cons member rest ih => simp [CanonicalMembers, ih]

mutual

/-- The canonical value that a value denotes. Of a name that occurs twice the last value counts. -/
def normalize : Json → Json
  | .null => .null
  | .bool b => .bool b
  | .number n => .number n
  | .string s => .string s
  | .array items => .array (normalizeItems items)
  | .object members => .object (normalizeMembers members)

def normalizeItems : List Json → List Json
  | [] => []
  | item :: rest => normalize item :: normalizeItems rest

def normalizeMembers : List (String × Json) → Members Json
  | [] => []
  | (name, value) :: rest =>
    let rest := normalizeMembers rest
    if rest.contains name then rest else rest.insert name (normalize value)

end

mutual

theorem canonical_normalize : (v : Json) → v.normalize.Canonical
  | .null | .bool _ | .number _ | .string _ => trivial
  | .array items => canonicalItems_normalize items
  | .object members => canonicalMembers_normalize members

theorem canonicalItems_normalize : (items : List Json) → CanonicalItems (normalizeItems items)
  | [] => trivial
  | item :: rest => ⟨canonical_normalize item, canonicalItems_normalize rest⟩

theorem canonicalMembers_normalize : (members : List (String × Json)) →
    (normalizeMembers members).Ascending ∧ CanonicalMembers (normalizeMembers members)
  | [] => ⟨List.Pairwise.nil, trivial⟩
  | (name, value) :: rest => by
    obtain ⟨ascending, canonical⟩ := canonicalMembers_normalize rest
    simp only [normalizeMembers]
    split
    · exact ⟨ascending, canonical⟩
    · refine ⟨ascending.insert _ _, canonicalMembers_iff.2 fun member mem => ?_⟩
      rcases Members.mem_insert mem with rfl | mem
      · exact canonical_normalize value
      · exact canonicalMembers_iff.1 canonical member mem

end

end AccelControl.Json
