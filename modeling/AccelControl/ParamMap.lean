import AccelControl.Json.Canonical
import AccelControl.Schema.Basic

/-! The parameters of a remote procedure call: a map from names to canonical JSON values. -/

set_option autoImplicit false

namespace AccelControl

structure ParamMap where
  members : Members Json
  canonical : (Json.object members).Canonical

namespace ParamMap

@[ext] theorem ext {p q : ParamMap} (same : p.members = q.members) : p = q := by
  cases p; cases q; congr

def empty : ParamMap := ⟨[], List.Pairwise.nil, trivial⟩

def isEmpty (p : ParamMap) : Bool := p.members.isEmpty

def get? (p : ParamMap) (name : String) : Option Json := p.members.get? name

def contains (p : ParamMap) (name : String) : Bool := (p.get? name).isSome

def insert (p : ParamMap) (name : String) (value : Json) (canonical : value.Canonical) :
    ParamMap where
  members := p.members.insert name value
  canonical := by
    refine ⟨p.canonical.1.insert name value, Json.canonicalMembers_iff.2 fun member mem => ?_⟩
    rcases Members.mem_insert mem with rfl | mem
    · exact canonical
    · exact Json.canonicalMembers_iff.1 p.canonical.2 member mem

def erase (p : ParamMap) (name : String) : ParamMap where
  members := p.members.erase name
  canonical := ⟨p.canonical.1.erase name, Json.canonicalMembers_iff.2 fun member mem =>
    Json.canonicalMembers_iff.1 p.canonical.2 member (List.mem_filter.1 mem).1⟩

/-- Every value in a map is canonical. -/
theorem canonical_of_get? {p : ParamMap} {name : String} {value : Json}
    (found : p.get? name = some value) : value.Canonical :=
  Json.canonicalMembers_iff.1 p.canonical.2 _ (Members.mem_of_get? found)

def ofMembers (members : List (String × Json)) : ParamMap :=
  ⟨Json.normalizeMembers members, Json.canonicalMembers_normalize members⟩

def schema : Schema ParamMap := Schema.members.map ofMembers

def toJson (p : ParamMap) : Json := .object p.members

@[simp] theorem get?_empty (name : String) : empty.get? name = none := rfl

@[simp] theorem get?_insert_self (p : ParamMap) (name : String) (value : Json)
    (canonical : value.Canonical) : (p.insert name value canonical).get? name = some value :=
  Members.get?_insert_self name value p.members

theorem get?_insert_of_ne (p : ParamMap) {name other : String} (different : other ≠ name)
    (value : Json) (canonical : value.Canonical) :
    (p.insert name value canonical).get? other = p.get? other :=
  Members.get?_insert_of_ne different value p.members

@[simp] theorem get?_erase_self (p : ParamMap) (name : String) : (p.erase name).get? name = none :=
  Members.get?_erase_self name p.members

theorem get?_erase_of_ne (p : ParamMap) {name other : String} (different : other ≠ name) :
    (p.erase name).get? other = p.get? other :=
  Members.get?_erase_of_ne different p.members

end ParamMap

end AccelControl
