import AccelControl.Deprecation
import AccelControl.Proofs.ParamMap

/-! What upgrading makes of each name.

The moves of a table do not get into each other's way when no name is moved twice, none is moved to
twice, and none is moved from and to. Then the value of a name after all moves can be read off the
map before them, whatever the order of the table.
-/

set_option autoImplicit false

namespace AccelControl

namespace DeprecatedParam

def moved : List DeprecatedParam := table.filter (·.polarity = .same)

def retired (params : List DeprecatedParam) (name : String) : Bool :=
  params.any (·.deprecated == name)

def origin? (params : List DeprecatedParam) (name : String) : Option String :=
  (params.find? (·.canonical == name)).map (·.deprecated)

def Apart (first second : DeprecatedParam) : Prop :=
  first.deprecated ≠ second.deprecated ∧ first.canonical ≠ second.canonical
    ∧ first.deprecated ≠ second.canonical ∧ first.canonical ≠ second.deprecated

instance (first second : DeprecatedParam) : Decidable (Apart first second) :=
  inferInstanceAs (Decidable (_ ∧ _))

/-- No move of a list of entries gets into the way of another. -/
structure Independent (params : List DeprecatedParam) : Prop where
  renames : ∀ param ∈ params, param.deprecated ≠ param.canonical
  apart : params.Pairwise Apart

theorem independent_moved : Independent moved where
  renames := by decide
  apart := by decide

theorem apart_table : table.Pairwise Apart := by decide

theorem retired_cons (param : DeprecatedParam) (params : List DeprecatedParam) (name : String) :
    retired (param :: params) name = (param.deprecated == name || retired params name) := rfl

theorem origin?_cons_of_ne {param : DeprecatedParam} {name : String}
    (different : param.canonical ≠ name) (params : List DeprecatedParam) :
    origin? (param :: params) name = origin? params name := by
  simp [origin?, different]

theorem origin?_cons_canonical (param : DeprecatedParam) (params : List DeprecatedParam) :
    origin? (param :: params) param.canonical = some param.deprecated := by
  simp [origin?]

theorem retired_eq_false {params : List DeprecatedParam} {name : String}
    (others : ∀ param ∈ params, param.deprecated ≠ name) : retired params name = false := by
  simpa [retired] using others

theorem origin?_eq_none {params : List DeprecatedParam} {name : String}
    (others : ∀ param ∈ params, param.canonical ≠ name) : origin? params name = none := by
  simpa [origin?] using others

theorem exists_of_origin? {params : List DeprecatedParam} {name origin : String}
    (found : origin? params name = some origin) :
    ∃ param ∈ params, param.canonical = name ∧ param.deprecated = origin := by
  obtain ⟨param, found, same⟩ := Option.map_eq_some_iff.1 found
  exact ⟨param, List.mem_of_find?_eq_some found, by simpa using List.find?_some found, same⟩

def notice (param : DeprecatedParam) : Notice := ⟨param, param.polarity = .same⟩

end DeprecatedParam

namespace BuiltParams

open DeprecatedParam

@[ext] theorem ext {built other : BuiltParams} (params : built.params = other.params)
    (notices : built.notices = other.notices) : built = other := by
  cases built
  cases other
  congr

section Move

variable {param : DeprecatedParam} (renames : param.deprecated ≠ param.canonical) (m : ParamMap)

include renames in
theorem get?_move_deprecated : (move m param).get? param.deprecated = none := by
  unfold move
  split
  · next missing => exact missing
  · simp only
    split
    · exact m.get?_erase_self _
    · rw [ParamMap.get?_insert_of_ne _ renames, ParamMap.get?_erase_self]

include renames in
theorem get?_move_canonical :
    (move m param).get? param.canonical
      = (m.get? param.canonical).or (m.get? param.deprecated) := by
  have kept := m.get?_erase_of_ne renames.symm
  unfold move
  split
  · next missing => rw [missing, Option.or_none]
  · next value found =>
    simp only [ParamMap.contains, kept]
    split
    · next present => rw [kept, Option.or_of_isSome present]
    · next absent =>
      rw [Option.not_isSome_iff_eq_none] at absent
      rw [ParamMap.get?_insert_self, absent, found, Option.none_or]

variable {m} in
theorem move_of_missing (missing : m.get? param.deprecated = none) : move m param = m := by
  unfold move
  split
  · rfl
  · next found => cases missing.symm.trans found

theorem get?_move_of_ne {name : String} (notDeprecated : name ≠ param.deprecated)
    (notCanonical : name ≠ param.canonical) : (move m param).get? name = m.get? name := by
  unfold move
  split
  · rfl
  · simp only
    split
    · exact m.get?_erase_of_ne notDeprecated
    · rw [ParamMap.get?_insert_of_ne _ notCanonical, ParamMap.get?_erase_of_ne _ notDeprecated]

end Move

/-- After independent moves a name has no value if it is retired, else its own or, without one,
that of its origin. -/
theorem get?_foldl_move {params : List DeprecatedParam} (independent : Independent params)
    (m : ParamMap) (name : String) :
    (params.foldl move m).get? name
      = if retired params name then none
        else (m.get? name).or ((origin? params name).bind m.get?) := by
  induction params generalizing m with
  | nil => simp [retired, origin?]
  | cons param params ih =>
    obtain ⟨apart, later⟩ := List.pairwise_cons.1 independent.apart
    have renames := independent.renames param List.mem_cons_self
    have ih := ih ⟨fun other mem => independent.renames other (List.mem_cons_of_mem _ mem), later⟩
      (move m param)
    rw [List.foldl_cons, ih, retired_cons]
    by_cases deprecated : param.deprecated = name
    · subst deprecated
      have gone := origin?_eq_none fun other mem => (apart other mem).2.2.1.symm
      simp [get?_move_deprecated renames, gone]
    · by_cases canonical : param.canonical = name
      · subst canonical
        have stays := retired_eq_false fun other mem => (apart other mem).2.2.2.symm
        have only := origin?_eq_none fun other mem => (apart other mem).2.1.symm
        simp [deprecated, stays, only, origin?_cons_canonical, get?_move_canonical renames]
      · have same : (origin? params name).bind (move m param).get?
            = (origin? params name).bind m.get? := by
          cases found : origin? params name with
          | none => rfl
          | some origin =>
            obtain ⟨other, mem, -, rfl⟩ := exists_of_origin? found
            obtain ⟨notDeprecated, -, -, notCanonical⟩ := apart other mem
            exact get?_move_of_ne m notDeprecated.symm notCanonical.symm
        rw [origin?_cons_of_ne canonical, same,
          get?_move_of_ne m (Ne.symm deprecated) (Ne.symm canonical),
          beq_false_of_ne deprecated, Bool.false_or]

theorem upgradeParam_params (built : BuiltParams) (param : DeprecatedParam) :
    (upgradeParam built param).params
      = if param.polarity = .same then move built.params param else built.params := by
  unfold upgradeParam
  split
  · cases param.polarity <;> rfl
  · next missing => rw [move_of_missing (ParamMap.get?_eq_none_of_not_contains missing), ite_self]

/-- Upgrading does the moves of the table and nothing else. -/
theorem upgrade_params (m : ParamMap) : (upgrade m).params = moved.foldl move m := by
  have run (params : List DeprecatedParam) (built : BuiltParams) :
      (params.foldl upgradeParam built).params
        = (params.filter (·.polarity = .same)).foldl move built.params := by
    induction params generalizing built with
    | nil => rfl
    | cons param params ih =>
      rw [List.foldl_cons, ih, upgradeParam_params, List.filter_cons]
      by_cases same : param.polarity = .same <;> simp [same]
  exact run _ _

theorem get?_upgrade (m : ParamMap) (name : String) :
    (upgrade m).params.get? name
      = if retired moved name then none
        else (m.get? name).or ((origin? moved name).bind m.get?) := by
  rw [upgrade_params, get?_foldl_move independent_moved]

theorem upgradeParam_notices (built : BuiltParams) (param : DeprecatedParam) :
    (upgradeParam built param).notices
      = built.notices ++ if built.params.contains param.deprecated then [param.notice] else [] := by
  unfold upgradeParam
  split
  · unfold notice
    cases param.polarity <;> rfl
  · exact (List.append_nil _).symm

theorem contains_upgradeParam {param other : DeprecatedParam} (apart : Apart param other)
    (built : BuiltParams) : (upgradeParam built param).params.contains other.deprecated
      = built.params.contains other.deprecated := by
  rw [upgradeParam_params]
  split
  · rw [ParamMap.contains, get?_move_of_ne _ apart.1.symm apart.2.2.2.symm, ← ParamMap.contains]
  · rfl

theorem foldl_upgradeParam_notices {params : List DeprecatedParam} (apart : params.Pairwise Apart)
    (built : BuiltParams) :
    (params.foldl upgradeParam built).notices
      = built.notices
        ++ (params.filter (built.params.contains ·.deprecated)).map DeprecatedParam.notice := by
  induction params generalizing built with
  | nil => exact (List.append_nil _).symm
  | cons param params ih =>
    obtain ⟨apart, later⟩ := List.pairwise_cons.1 apart
    -- What is done for one entry leaves the names that later entries look for as they are.
    have same : params.filter ((upgradeParam built param).params.contains ·.deprecated)
        = params.filter (built.params.contains ·.deprecated) :=
      List.filter_congr fun other mem => contains_upgradeParam (apart other mem) built
    rw [List.foldl_cons, ih later, same, upgradeParam_notices, List.append_assoc,
      List.filter_cons]
    split <;> rfl

/-- Upgrading raises one notice for each entry whose deprecated name is used, in the order of the
table. -/
theorem upgrade_notices (m : ParamMap) :
    (upgrade m).notices
      = (table.filter (m.contains ·.deprecated)).map DeprecatedParam.notice :=
  foldl_upgradeParam_notices apart_table ⟨m, []⟩

theorem exists_of_mem_notices {m : ParamMap} {notice : Notice}
    (raised : notice ∈ (upgrade m).notices) : ∃ param ∈ table, param.notice = notice := by
  rw [upgrade_notices] at raised
  obtain ⟨param, used, same⟩ := List.mem_map.1 raised
  exact ⟨param, (List.mem_filter.1 used).1, same⟩

/-- The value of a name, if any, after upgrading. -/
inductive Upgraded (m : ParamMap) (name : String) : Option Json → Prop where
  | retired {param : DeprecatedParam} (mem : param ∈ moved) (named : param.deprecated = name) :
      Upgraded m name none
  | kept {value : Json} (current : ∀ param ∈ moved, param.deprecated ≠ name)
      (found : m.get? name = some value) : Upgraded m name (some value)
  | moved {value : Json} {param : DeprecatedParam}
      (current : ∀ param ∈ moved, param.deprecated ≠ name) (missing : m.get? name = none)
      (mem : param ∈ moved) (named : param.canonical = name)
      (found : m.get? param.deprecated = some value) : Upgraded m name (some value)
  | absent (current : ∀ param ∈ moved, param.deprecated ≠ name) (missing : m.get? name = none)
      (nowhere : ∀ param ∈ moved, param.canonical = name → m.get? param.deprecated = none) :
      Upgraded m name none

theorem retired_iff {params : List DeprecatedParam} {name : String} :
    retired params name = true ↔ ∃ param ∈ params, param.deprecated = name := by
  simp [retired]

theorem origin?_canonical {params : List DeprecatedParam} (apart : params.Pairwise Apart)
    {param : DeprecatedParam} (mem : param ∈ params) :
    origin? params param.canonical = some param.deprecated := by
  induction params with
  | nil => exact nomatch mem
  | cons first params ih =>
    obtain ⟨apart, later⟩ := List.pairwise_cons.1 apart
    rcases List.mem_cons.1 mem with rfl | mem
    · exact origin?_cons_canonical param params
    · rw [origin?_cons_of_ne (apart param mem).2.1, ih later mem]

theorem upgraded_get? (m : ParamMap) (name : String) :
    Upgraded m name ((upgrade m).params.get? name) := by
  rw [get?_upgrade]
  by_cases gone : retired moved name = true
  · obtain ⟨param, mem, named⟩ := retired_iff.1 gone
    rw [if_pos gone]
    exact .retired mem named
  · have current : ∀ param ∈ moved, param.deprecated ≠ name := fun param mem named =>
      gone (retired_iff.2 ⟨param, mem, named⟩)
    rw [if_neg gone]
    cases own : m.get? name with
    | some value => exact .kept current own
    | none =>
      rw [Option.none_or]
      cases found : (origin? moved name).bind m.get? with
      | some value =>
        obtain ⟨origin, first, found⟩ := Option.bind_eq_some_iff.1 found
        obtain ⟨param, mem, named, rfl⟩ := exists_of_origin? first
        exact .moved current own mem named found
      | none =>
        refine .absent current own fun param mem named => ?_
        rwa [← named, origin?_canonical independent_moved.apart mem] at found

theorem mem_moved_iff {param : DeprecatedParam} :
    param ∈ moved ↔ param ∈ table ∧ param.polarity = .same := by
  simp [moved]

theorem get?_upgrade_deprecated {param : DeprecatedParam} (mem : param ∈ moved) (m : ParamMap) :
    (upgrade m).params.get? param.deprecated = none := by
  rw [get?_upgrade, if_pos (retired_iff.2 ⟨param, mem, rfl⟩)]

/-- A value of its own comes before one that is moved. -/
theorem get?_upgrade_canonical_of_moved {param : DeprecatedParam} (mem : param ∈ moved)
    (m : ParamMap) :
    (upgrade m).params.get? param.canonical
      = (m.get? param.canonical).or (m.get? param.deprecated) := by
  have stays : ∀ param ∈ moved, retired moved param.canonical = false := by decide
  rw [get?_upgrade, stays param mem, if_neg Bool.false_ne_true,
    origin?_canonical independent_moved.apart mem, Option.bind_some]

/-- A name that no move is about keeps its value. -/
theorem get?_upgrade_of_apart {name : String}
    (apart : ∀ param ∈ moved, param.deprecated ≠ name ∧ param.canonical ≠ name) (m : ParamMap) :
    (upgrade m).params.get? name = m.get? name := by
  have stays := retired_eq_false fun param mem => (apart param mem).1
  have none := origin?_eq_none fun param mem => (apart param mem).2
  simp [get?_upgrade, stays, none]

theorem get?_upgrade_of_unmoved {param : DeprecatedParam} (mem : param ∈ table)
    (differs : param.polarity ≠ .same) (m : ParamMap) :
    (upgrade m).params.get? param.deprecated = m.get? param.deprecated := by
  have apart : ∀ param ∈ table, param.polarity ≠ .same → ∀ other ∈ moved,
      other.deprecated ≠ param.deprecated ∧ other.canonical ≠ param.deprecated := by decide
  exact get?_upgrade_of_apart (apart param mem differs) m

theorem get?_upgrade_canonical_of_unmoved {param : DeprecatedParam} (mem : param ∈ table)
    (differs : param.polarity ≠ .same) (m : ParamMap) :
    (upgrade m).params.get? param.canonical = m.get? param.canonical := by
  have apart : ∀ param ∈ table, param.polarity ≠ .same → ∀ other ∈ moved,
      other.deprecated ≠ param.canonical ∧ other.canonical ≠ param.canonical := by decide
  exact get?_upgrade_of_apart (apart param mem differs) m

theorem get?_upgrade_canonical {param : DeprecatedParam} (mem : param ∈ table) {m : ParamMap}
    {value : Json} (own : m.get? param.canonical = some value) :
    (upgrade m).params.get? param.canonical = some value := by
  have stays : ∀ param ∈ table, retired moved param.canonical = false := by decide
  simp [get?_upgrade, stays param mem, own]

theorem upgrade_notices_params (m : ParamMap) :
    (upgrade m).notices.map (·.param) = table.filter (m.contains ·.deprecated) := by
  rw [upgrade_notices, List.map_map]
  exact List.map_id _

theorem renamed_iff_of_mem_notices {m : ParamMap} {notice : Notice}
    (mem : notice ∈ (upgrade m).notices) :
    notice.renamed = true ↔ notice.param.polarity = .same := by
  obtain ⟨param, -, rfl⟩ := exists_of_mem_notices mem
  exact decide_eq_true_iff

/-- What upgrading makes of the value of each name, and the notices that it raises. Nothing happens
to deprecated names whose values are not moved and to names that are not in the table, and a value
that a canonical name has of its own stays. -/
theorem upgrade_values_and_notices (m : ParamMap) :
    (∀ name, Upgraded m name ((upgrade m).params.get? name)) ∧
      (∀ param ∈ table, param.polarity ≠ .same →
        (upgrade m).params.get? param.deprecated = m.get? param.deprecated) ∧
      (∀ name, (∀ param ∈ table, param.deprecated ≠ name ∧ param.canonical ≠ name) →
        (upgrade m).params.get? name = m.get? name) ∧
      (∀ param ∈ table, ∀ value, m.get? param.canonical = some value →
        (upgrade m).params.get? param.canonical = some value) ∧
      (upgrade m).notices.map (·.param) = table.filter (m.contains ·.deprecated) ∧
      ∀ notice ∈ (upgrade m).notices, notice.renamed = true ↔ notice.param.polarity = .same := by
  refine ⟨upgraded_get? m, ?_, ?_, ?_, upgrade_notices_params m, ?_⟩
  · exact fun param mem differs => get?_upgrade_of_unmoved mem differs m
  · exact fun name unknown => get?_upgrade_of_apart
      (fun param mem => unknown param (List.mem_filter.1 mem).1) m
  · exact fun param mem value own => get?_upgrade_canonical mem own
  · exact fun notice mem => renamed_iff_of_mem_notices mem

-- The number of blocks moves unless there is one already, and is reported as moved in both cases.
example :
    let blocks (name : String) (n : UInt64) := (name, Json.ofUInt64 n)
    let flags := [("enable_crc", Json.bool false), ("siglast", Json.bool true)]
    let upgraded (members : List (String × Json)) :=
      let built := upgrade (.ofMembers members)
      (built.params.members,
        built.notices.map fun notice => (notice.param.deprecated, notice.renamed))
    let notices := [("split_mb_blocks", true), ("siglast", false), ("enable_crc", false)]
    upgraded (blocks "split_mb_blocks" 64 :: flags)
        = (blocks "crypto_split_blocks" 64 :: flags, notices) ∧
      upgraded (blocks "split_mb_blocks" 64 :: blocks "crypto_split_blocks" 32 :: flags)
        = (blocks "crypto_split_blocks" 32 :: flags, notices) :=
  ⟨rfl, rfl⟩

end BuiltParams

end AccelControl
