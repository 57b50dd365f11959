import AccelControl.Json.Canonical

/-! Canonical values and the maps that members denote.

Two ascending lists with the same values are the same list. So members that are set one after
another make the canonical members of an object, and what is canonical stays as it is.
-/

set_option autoImplicit false

namespace AccelControl

namespace Members

variable {α : Type}

theorem get?_cons (name : String) (value : α) (members : Members α) (other : String) :
    get? other ((name, value) :: members)
      = if name = other then some value else get? other members := by
  by_cases same : name = other
  · simp [get?, same]
  · simp [get?, same]

theorem get?_eq_none {name : String} {members : Members α}
    (absent : ∀ member ∈ members, member.1 ≠ name) : get? name members = none := by
  simpa [get?] using absent

theorem contains_iff {name : String} {members : Members α} :
    contains name members = true ↔ ∃ value, get? name members = some value := by
  induction members with
  | nil => simp [contains, get?]
  | cons head rest ih =>
    obtain ⟨other, old⟩ := head
    rw [get?_cons]
    by_cases same : other = name
    · simp [contains, same]
    · simp only [same, if_false, ← ih]
      simp [contains, same]

theorem Ascending.head_lt {name : String} {value : α} {members : Members α}
    (ascending : Ascending ((name, value) :: members)) : ∀ member ∈ members, name < member.1 :=
  (List.pairwise_cons.1 ascending).1

theorem get?_head (name : String) (value : α) (rest : Members α) :
    get? name ((name, value) :: rest) = some value := by
  rw [get?_cons, if_pos rfl]

theorem get?_of_mem {name : String} {value : α} {members : Members α}
    (distinct : (members.map (·.1)).Nodup) (mem : (name, value) ∈ members) :
    get? name members = some value := by
  induction members with
  | nil => exact absurd mem List.not_mem_nil
  | cons member members ih =>
    rw [List.map_cons, List.nodup_cons] at distinct
    rcases List.mem_cons.1 mem with rfl | mem
    · exact get?_head name value members
    · have different : member.1 ≠ name := fun same =>
        distinct.1 (List.mem_map.2 ⟨_, mem, same.symm⟩)
      rw [get?_cons, if_neg different, ih distinct.2 mem]

theorem Ascending.nodup {members : Members α} (ascending : Ascending members) :
    (members.map (·.1)).Nodup :=
  List.pairwise_map.2 (ascending.imp String.ne_of_lt)

/-- No later member has the name of the first one. -/
theorem get?_tail {name : String} {value : α} {rest : Members α}
    (distinct : (((name, value) :: rest).map (·.1)).Nodup) : get? name rest = none :=
  get?_eq_none fun member mem same =>
    (List.nodup_cons.1 distinct).1 (List.mem_map.2 ⟨member, mem, same⟩)

theorem Ascending.get?_tail {name : String} {value : α} {rest : Members α}
    (ascending : Ascending ((name, value) :: rest)) : get? name rest = none :=
  Members.get?_tail ascending.nodup

theorem Ascending.head_le {name other : String} {value found : α} {rest : Members α}
    (ascending : Ascending ((name, value) :: rest))
    (present : get? other ((name, value) :: rest) = some found) : name ≤ other := by
  rcases List.mem_cons.1 (mem_of_get? present) with same | mem
  · cases same
    exact String.le_refl name
  · exact String.not_lt.1 (String.lt_asymm (ascending.head_lt _ mem))

/-- Ascending members with the same values are the same. -/
theorem Ascending.ext {first second : Members α} (ascending : Ascending first)
    (ascending' : Ascending second) (same : ∀ name, get? name first = get? name second) :
    first = second := by
  induction first generalizing second with
  | nil =>
    cases second with
    | nil => rfl
    | cons head rest => exact nomatch (same head.1).trans (get?_head head.1 head.2 rest)
  | cons head rest ih =>
    cases second with
    | nil => exact nomatch (same head.1).symm.trans (get?_head head.1 head.2 rest)
    | cons head' rest' =>
      obtain ⟨name, value⟩ := head
      obtain ⟨name', value'⟩ := head'
      -- Each of the two first names is found in the other list, so neither is less.
      have above := ascending'.head_le ((same name).symm.trans (get?_head name value rest))
      have below := ascending.head_le ((same name').trans (get?_head name' value' rest'))
      cases String.le_antisymm above below
      have sameValue := same name
      rw [get?_head, get?_head] at sameValue
      cases Option.some.inj sameValue
      rw [ih (List.pairwise_cons.1 ascending).2 (List.pairwise_cons.1 ascending').2]
      intro other
      by_cases other' : name = other
      · rw [← other', ascending.get?_tail, ascending'.get?_tail]
      · have found := same other
        rwa [get?_cons, if_neg other', get?_cons, if_neg other'] at found

def last? (name : String) : List (String × α) → Option α
  | [] => none
  | (other, value) :: entries => (last? name entries).or (if other = name then some value else none)

theorem last?_eq_none {name : String} {entries : List (String × α)}
    (absent : ∀ entry ∈ entries, entry.1 ≠ name) : last? name entries = none := by
  induction entries with
  | nil => rfl
  | cons entry entries ih =>
    rw [last?, if_neg (absent entry List.mem_cons_self),
      ih fun other mem => absent other (List.mem_cons_of_mem entry mem)]
    rfl

theorem last?_of_mem {name : String} {value : α} {entries : List (String × α)}
    (distinct : (entries.map (·.1)).Nodup) (mem : (name, value) ∈ entries) :
    last? name entries = some value := by
  induction entries with
  | nil => exact absurd mem List.not_mem_nil
  | cons entry entries ih =>
    rw [List.map_cons, List.nodup_cons] at distinct
    rcases List.mem_cons.1 mem with rfl | mem
    · have absent : last? name entries = none := last?_eq_none fun other mem same =>
        distinct.1 (List.mem_map.2 ⟨other, mem, same⟩)
      rw [last?, absent, if_pos rfl]
      rfl
    · rw [last?, ih distinct.2 mem]
      rfl

theorem get?_foldl_insert (name : String) (entries : List (String × α)) (members : Members α) :
    get? name (entries.foldl (fun members entry => insert entry.1 entry.2 members) members)
      = (last? name entries).or (get? name members) := by
  induction entries generalizing members with
  | nil => rfl
  | cons entry entries ih =>
    rw [List.foldl_cons, ih, last?]
    by_cases same : entry.1 = name
    · rw [if_pos same, ← same, get?_insert_self]
      cases last? entry.1 entries <;> rfl
    · rw [if_neg same, get?_insert_of_ne (Ne.symm same)]
      cases last? name entries <;> rfl

theorem last?_eq_get? {entries : List (String × α)} (distinct : (entries.map (·.1)).Nodup)
    (name : String) : last? name entries = get? name entries := by
  cases found : get? name entries with
  | some value => exact last?_of_mem distinct (mem_of_get? found)
  | none =>
    apply last?_eq_none
    rintro ⟨_, value⟩ mem rfl
    exact nomatch found.symm.trans (get?_of_mem distinct mem)

theorem ascending_foldl_insert (entries : List (String × α)) {members : Members α}
    (ascending : Ascending members) :
    Ascending (entries.foldl (fun members entry => insert entry.1 entry.2 members) members) := by
  induction entries generalizing members with
  | nil => exact ascending
  | cons entry entries ih => exact ih (ascending.insert entry.1 entry.2)

theorem ascending_ofEntries (entries : List (String × α)) : Ascending (ofEntries entries) :=
  ascending_foldl_insert entries List.Pairwise.nil

/-- Entries with distinct names make a map with the same values. -/
theorem get?_ofEntries {entries : List (String × α)} (distinct : (entries.map (·.1)).Nodup)
    (name : String) : get? name (ofEntries entries) = get? name entries := by
  rw [ofEntries, get?_foldl_insert, last?_eq_get? distinct]
  cases get? name entries <;> rfl

end Members

namespace Json

def normalEntries (members : List (String × Json)) : List (String × Json) :=
  members.map fun member => (member.1, member.2.normalize)

theorem get?_normalizeMembers (name : String) (members : List (String × Json)) :
    Members.get? name (normalizeMembers members) = Members.last? name (normalEntries members) := by
  induction members with
  | nil => rfl
  | cons member members ih =>
    obtain ⟨other, value⟩ := member
    simp only [normalizeMembers, normalEntries, List.map_cons, Members.last?]
    simp only [normalEntries] at ih
    rw [← ih]
    split
    · next present =>
      obtain ⟨old, found⟩ := Members.contains_iff.1 present
      by_cases same : other = name
      · rw [← same, found]
        rfl
      · rw [if_neg same]
        cases Members.get? name (normalizeMembers members) <;> rfl
    · next missing =>
      by_cases same : other = name
      · rw [← same, Members.get?_insert_self, if_pos rfl]
        cases found : Members.get? other (normalizeMembers members) with
        | none => rfl
        | some old => exact absurd (Members.contains_iff.2 ⟨old, found⟩) missing
      · rw [Members.get?_insert_of_ne (Ne.symm same), if_neg same]
        cases Members.get? name (normalizeMembers members) <;> rfl

-- The canonical members are those that come of setting one member after another.
theorem foldl_insert_normalEntries (members : List (String × Json)) :
    (normalEntries members).foldl (fun members entry => Members.insert entry.1 entry.2 members) []
      = normalizeMembers members := by
  refine Members.Ascending.ext (Members.ascending_foldl_insert _ List.Pairwise.nil)
    (canonicalMembers_normalize members).1 fun name => ?_
  rw [Members.get?_foldl_insert, get?_normalizeMembers]
  cases Members.last? name (normalEntries members) <;> rfl

theorem get?_normalizeMembers_of_mem {name : String} {value : Json} {members : List (String × Json)}
    (distinct : (members.map (·.1)).Nodup) (mem : (name, value) ∈ members) :
    Members.get? name (normalizeMembers members) = some value.normalize := by
  rw [get?_normalizeMembers]
  refine Members.last?_of_mem ?_ (List.mem_map.2 ⟨_, mem, rfl⟩)
  rwa [normalEntries, List.map_map]

theorem get?_normalizeMembers_of_absent {name : String} {members : List (String × Json)}
    (absent : ∀ member ∈ members, member.1 ≠ name) :
    Members.get? name (normalizeMembers members) = none := by
  rw [get?_normalizeMembers]
  apply Members.last?_eq_none
  intro entry mem
  obtain ⟨member, inside, rfl⟩ := List.mem_map.1 mem
  exact absent member inside

mutual

/-- A canonical value is left as it is. -/
theorem normalize_of_canonical : (v : Json) → v.Canonical → v.normalize = v
  | .null, _ | .bool _, _ | .number _, _ | .string _, _ => rfl
  | .array items, canonical => congrArg Json.array (normalizeItems_of_canonical items canonical)
  | .object members, canonical =>
    congrArg Json.object (normalizeMembers_of_canonical members canonical.1 canonical.2)

theorem normalizeItems_of_canonical : (items : List Json) → CanonicalItems items →
    normalizeItems items = items
  | [], _ => rfl
  | item :: rest, canonical => by
    rw [normalizeItems, normalize_of_canonical item canonical.1,
      normalizeItems_of_canonical rest canonical.2]

theorem normalizeMembers_of_canonical : (members : List (String × Json)) →
    Members.Ascending members → CanonicalMembers members → normalizeMembers members = members
  | [], _, _ => rfl
  | (name, value) :: rest, ascending, canonical => by
    have later := ascending.head_lt
    have same := normalizeMembers_of_canonical rest (List.pairwise_cons.1 ascending).2 canonical.2
    have missing : ¬Members.contains name rest = true := fun present => by
      obtain ⟨old, found⟩ := Members.contains_iff.1 present
      exact nomatch ascending.get?_tail.symm.trans found
    simp only [normalizeMembers, same, missing, normalize_of_canonical value canonical.1]
    cases rest with
    | nil => rfl
    | cons head rest =>
      simp only [Members.insert, later head List.mem_cons_self]
      rfl

end

end Json

end AccelControl
