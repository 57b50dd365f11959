/-! Finite maps from names to values, as lists in ascending order of names.

Names are ordered by their code points, which is also the order of their UTF-8 bytes. The order
makes equal maps equal lists, and it is the order in which a map is written.
-/

set_option autoImplicit false

namespace AccelControl

variable {α : Type}

abbrev Members (α : Type) := List (String × α)

namespace Members

/-- The names stand in ascending order, so none occurs twice. -/
def Ascending (members : Members α) : Prop :=
  members.Pairwise (fun first second => first.1 < second.1)

def insert (name : String) (value : α) : Members α → Members α
  | [] => [(name, value)]
  | (head, old) :: rest =>
    if name < head then (name, value) :: (head, old) :: rest
    else if name = head then (name, value) :: rest
    else (head, old) :: insert name value rest

def erase (name : String) (members : Members α) : Members α :=
  members.filter (fun member => member.1 != name)

def get? (name : String) (members : Members α) : Option α :=
  (members.find? (fun member => member.1 == name)).map (·.2)

def contains (name : String) (members : Members α) : Bool :=
  members.any (fun member => member.1 == name)

/-- The map that a list of entries denotes, later entries replacing earlier ones. -/
def ofEntries (entries : List (String × α)) : Members α :=
  entries.foldl (fun members entry => insert entry.1 entry.2 members) []

theorem mem_insert {name : String} {value : α} {members : Members α} {entry : String × α}
    (mem : entry ∈ insert name value members) : entry = (name, value) ∨ entry ∈ members := by
  induction members with
  | nil => simpa [insert] using mem
  | cons head rest ih =>
    simp only [insert] at mem
    split at mem
    · simpa using mem
    · split at mem
      · simp only [List.mem_cons] at mem ⊢
        rcases mem with rfl | mem
        · exact .inl rfl
        · exact .inr (.inr mem)
      · simp only [List.mem_cons] at mem ⊢
        rcases mem with rfl | mem
        · exact .inr (.inl rfl)
        · exact (ih mem).imp_right .inr

/-- Setting a value keeps the order. -/
theorem Ascending.insert {members : Members α} (ascending : Ascending members) (name : String)
    (value : α) : Ascending (insert name value members) := by
  induction members with
  | nil => simp [Members.insert, Ascending]
  | cons head rest ih =>
    obtain ⟨before, ascending⟩ := List.pairwise_cons.1 ascending
    simp only [Members.insert]
    split
    · next less =>
      refine List.pairwise_cons.2 ⟨fun entry mem => ?_, List.pairwise_cons.2 ⟨before, ascending⟩⟩
      rcases List.mem_cons.1 mem with rfl | mem
      · exact less
      · exact String.lt_trans less (before entry mem)
    · next notLess =>
      split
      · next same =>
        subst same
        exact List.pairwise_cons.2 ⟨before, ascending⟩
      · next different =>
        refine List.pairwise_cons.2 ⟨fun entry mem => ?_, ih ascending⟩
        rcases mem_insert mem with rfl | mem
        · exact Std.lt_of_le_of_ne (String.not_lt.1 notLess) (Ne.symm different)
        · exact before entry mem

/-- Removing a name keeps the order. -/
theorem Ascending.erase {members : Members α} (ascending : Ascending members) (name : String) :
    Ascending (erase name members) :=
  List.Pairwise.filter _ ascending

theorem get?_insert_self (name : String) (value : α) (members : Members α) :
    get? name (insert name value members) = some value := by
  induction members with
  | nil => simp [insert, get?]
  | cons head rest ih =>
    simp only [insert]
    split
    · simp [get?]
    · split
      · simp [get?]
      · next different =>
        simpa [get?, List.find?_cons, Ne.symm different] using ih

theorem get?_insert_of_ne {name other : String} (different : other ≠ name) (value : α)
    (members : Members α) : get? other (insert name value members) = get? other members := by
  have head : ∀ rest : Members α, get? other ((name, value) :: rest) = get? other rest := by
    simp [get?, Ne.symm different]
  induction members with
  | nil => simp [insert, head]
  | cons entry rest ih =>
    simp only [insert]
    split
    · exact head _
    · split
      · next same =>
        subst same
        simp [get?, Ne.symm different]
      · simp only [get?, List.find?_cons] at ih ⊢
        split <;> simp_all

theorem get?_erase_self (name : String) (members : Members α) :
    get? name (erase name members) = none := by
  simp only [get?, erase, Option.map_eq_none_iff, List.find?_eq_none]
  intro entry mem
  simpa using (List.mem_filter.1 mem).2

theorem get?_erase_of_ne {name other : String} (different : other ≠ name)
    (members : Members α) : get? other (erase name members) = get? other members := by
  simp only [get?, erase, List.find?_filter]
  congr 2
  funext entry
  by_cases same : entry.1 = other
  · simp [same, different]
  · simp [same]

theorem mem_of_get? {name : String} {value : α} {members : Members α}
    (found : get? name members = some value) : (name, value) ∈ members := by
  simp only [get?, Option.map_eq_some_iff] at found
  obtain ⟨entry, found, rfl⟩ := found
  have same : entry.1 = name := by simpa using List.find?_some found
  exact same ▸ List.mem_of_find?_eq_some found

end Members

end AccelControl
