import AccelControl.Json.Basic

/-! What JSON values are made of: how deep their parts nest, and which numbers they hold. -/

set_option autoImplicit false

namespace AccelControl.Json

mutual

/-- How many arrays and objects lie inside one another. -/
def depth : Json → Nat
  | .null | .bool _ | .number _ | .string _ => 0
  | .array items => itemsDepth items + 1
  | .object members => membersDepth members + 1

def itemsDepth : List Json → Nat
  | [] => 0
  | item :: rest => max (depth item) (itemsDepth rest)

def membersDepth : List (String × Json) → Nat
  | [] => 0
  | (_, value) :: rest => max (depth value) (membersDepth rest)

end

mutual

def FloatFree : Json → Prop
  | .null | .bool _ | .string _ | .number (.integer _) => True
  | .number (.float _) => False
  | .array items => FloatFreeItems items
  | .object members => FloatFreeMembers members

def FloatFreeItems : List Json → Prop
  | [] => True
  | item :: rest => FloatFree item ∧ FloatFreeItems rest

def FloatFreeMembers : List (String × Json) → Prop
  | [] => True
  | (_, value) :: rest => FloatFree value ∧ FloatFreeMembers rest

end

def HasParts : Json → Prop
  | .array _ | .object _ => True
  | .null | .bool _ | .number _ | .string _ => False

theorem floatFreeItems_iff {items : List Json} :
    FloatFreeItems items ↔ ∀ item ∈ items, item.FloatFree := by
  induction items with
  | nil => simp [FloatFreeItems]
  | cons item rest ih => simp [FloatFreeItems, ih]

theorem floatFreeMembers_iff {members : List (String × Json)} :
    FloatFreeMembers members ↔ ∀ member ∈ members, member.2.FloatFree := by
  induction members with
  | nil => simp [FloatFreeMembers]
  | cons member rest ih => simp [FloatFreeMembers, ih]

theorem itemsDepth_le_iff {items : List Json} {bound : Nat} :
    itemsDepth items ≤ bound ↔ ∀ item ∈ items, item.depth ≤ bound := by
  induction items with
  | nil => simp [itemsDepth]
  | cons item rest ih => rw [itemsDepth, Nat.max_le, ih, List.forall_mem_cons]

theorem membersDepth_le_iff {members : List (String × Json)} {bound : Nat} :
    membersDepth members ≤ bound ↔ ∀ member ∈ members, member.2.depth ≤ bound := by
  induction members with
  | nil => simp [membersDepth]
  | cons member rest ih => rw [membersDepth, Nat.max_le, ih, List.forall_mem_cons]

end AccelControl.Json
