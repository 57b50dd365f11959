import AccelControl.Proofs.Deprecation
import AccelControl.Proofs.Scan.Reading
import AccelControl.Proofs.Scan.Request

/-! What upgrading saved parameters does to the request.

Upgraded parameters read back, with the deprecated flag gone from them and its value in the
canonical flag if that name was free. A null takes a name without giving a value. So the request
stays as it was, unless the canonical flag is there as null: then the deprecated one is lost.
-/

set_option autoImplicit false

namespace AccelControl.ScanParams

section Upgrade

open BuiltParams DeprecatedParam

variable {m : ParamMap} {p : ScanParams}

theorem merge_mem_moved : DeprecatedParam.merge ∈ moved := by decide

theorem get?_upgrade_merge : (upgrade m).params.get? "merge" = none :=
  get?_upgrade_deprecated merge_mem_moved m

theorem get?_upgrade_enableDriver :
    (upgrade m).params.get? "enable_driver" = (m.get? "enable_driver").or (m.get? "merge") :=
  get?_upgrade_canonical_of_moved merge_mem_moved m

-- No other field has a deprecated name that the parameters know.
theorem get?_upgrade_of_known (known : ∀ name, m.contains name = true → name ∈ record.fieldNames)
    {name : String} (field : name ∈ record.fieldNames) (notMerge : name ≠ "merge")
    (notDriver : name ≠ "enable_driver") : (upgrade m).params.get? name = m.get? name := by
  have stays : ∀ name ∈ record.fieldNames, name ≠ "merge" → retired moved name = false := by decide
  have foreign : ∀ param ∈ moved, param.canonical ≠ "enable_driver" →
      param.deprecated ∉ record.fieldNames := by decide
  rw [get?_upgrade, stays name field notMerge, if_neg Bool.false_ne_true]
  cases found : origin? moved name with
  | none => exact Option.or_none
  | some origin =>
    obtain ⟨param, mem, rfl, rfl⟩ := exists_of_origin? found
    have missing := ParamMap.get?_eq_none_of_not_contains fun present =>
      foreign param mem notDriver (known _ present)
    rw [Option.bind_some, missing, Option.or_none]

theorem known_upgrade (known : ∀ name, m.contains name = true → name ∈ record.fieldNames)
    {name : String} (present : (upgrade m).params.contains name = true) :
    name ∈ record.fieldNames := by
  have canonical : ∀ param ∈ moved, param.canonical ∈ record.fieldNames := by decide
  by_cases before : m.contains name = true
  · exact known name before
  · rw [ParamMap.contains, get?_upgrade, ParamMap.get?_eq_none_of_not_contains before] at present
    split at present
    · cases present
    · rw [Option.none_or] at present
      cases found : origin? moved name with
      | none => simp [found] at present
      | some origin =>
        obtain ⟨param, mem, rfl, -⟩ := exists_of_origin? found
        exact canonical param mem

/-- Parameters without the deprecated flag, which stands in for the canonical one if a map has no
such name. -/
def upgraded (m : ParamMap) (p : ScanParams) : ScanParams :=
  { p with
    merge := none
    enableDriver := if m.contains "enable_driver" then p.enableDriver else p.merge }

/-- Upgraded parameters read as the upgraded ones. -/
theorem reads_upgrade (reads : schema.ofJson m.toJson = .ok p) :
    schema.ofJson (upgrade m).params.toJson = .ok (p.upgraded m) := by
  obtain ⟨known, parts⟩ := reads_iff.1 reads
  refine reads_iff.2 ⟨fun name => known_upgrade known, fun slot mem => ?_⟩
  by_cases isMerge : slot.name = "merge"
  · cases record_laidOut.eq_of_name_eq mem mergeSlot_mem isMerge
    exact congrArg (mergeSlot.schema.orElse none) get?_upgrade_merge
  by_cases isDriver : slot.name = "enable_driver"
  · cases record_laidOut.eq_of_name_eq mem enableDriverSlot_mem isDriver
    refine (congrArg (enableDriverSlot.schema.orElse none) get?_upgrade_enableDriver).trans ?_
    cases own : m.get? "enable_driver" with
    | none =>
      have driver : enableDriverSlot.get (p.upgraded m) = p.merge := by
        simp [enableDriverSlot, upgraded, ParamMap.contains, own]
      rw [driver]
      exact parts mergeSlot mergeSlot_mem
    | some value =>
      have driver : enableDriverSlot.get (p.upgraded m) = p.enableDriver := by
        simp [enableDriverSlot, upgraded, ParamMap.contains, own]
      rw [driver, Option.some_or, ← own]
      exact parts enableDriverSlot enableDriverSlot_mem
  · have field : slot.name ∈ record.fieldNames :=
      record_laidOut.fieldNames ▸ List.mem_map_of_mem mem
    have same : slot.get (p.upgraded m) = slot.get p :=
      (record_laidOut.get_set_of_ne slot mem _ enableDriverSlot_mem isDriver _ _).trans
        (record_laidOut.get_set_of_ne slot mem _ mergeSlot_mem isMerge none p)
    rw [get?_upgrade_of_known known field isMerge isDriver, same]
    exact parts slot mem

-- A null under the name reads like no value at all.
theorem enableDriver_eq_none_iff (reads : schema.ofJson m.toJson = .ok p) :
    p.enableDriver = none
      ↔ m.get? "enable_driver" = none ∨ m.get? "enable_driver" = some .null := by
  have part := (reads_iff.1 reads).2 enableDriverSlot enableDriverSlot_mem
  refine Iff.trans ?_ (@Schema.option_orElse_eq_none_iff _ .bool (m.get? "enable_driver"))
  exact ⟨fun missing => part.trans (congrArg _ missing),
    fun missing => Except.ok.inj (part.symm.trans missing)⟩

/-- Upgraded parameters always read back, and they make the same request exactly if the deprecated
flag is not given beside a canonical one that is null. -/
theorem build_upgrade_iff (m : ParamMap) {p : ScanParams}
    (reads : schema.ofJson m.toJson = .ok p) :
    ∃ p', schema.ofJson (upgrade m).params.toJson = .ok p'
      ∧ (p'.build.params = p.build.params
        ↔ ¬(m.get? "enable_driver" = some .null ∧ p.merge.isSome = true)) := by
  refine ⟨p.upgraded m, reads_upgrade reads, (build_flags_iff p _ none).trans ?_⟩
  have absent_iff := enableDriver_eq_none_iff reads
  rw [Option.or_none, driver]
  cases own : m.get? "enable_driver" with
  | none =>
    have absent : p.enableDriver = none := absent_iff.2 (.inl own)
    simp [ParamMap.contains, own, absent]
  | some value =>
    simp only [own, reduceCtorEq, Option.some.injEq, false_or] at absent_iff
    simp only [ParamMap.contains, own, Option.isSome_some, if_true, Option.some.injEq, ← absent_iff]
    cases p.enableDriver <;> cases p.merge <;> simp

theorem build_upgrade_iff_nullDriver :
    let m := ParamMap.ofMembers [("enable_driver", .null), ("merge", .bool true)]
    let p := { empty with merge := some true }
    schema.ofJson m.toJson = .ok p
      ∧ ∃ p', schema.ofJson (upgrade m).params.toJson = .ok p'
        ∧ (p'.build.params = p.build.params
          ↔ ¬(m.get? "enable_driver" = some .null ∧ p.merge.isSome = true)) :=
  ⟨rfl, build_upgrade_iff _ rfl⟩

/-- A flag under its deprecated name is lost beside a null under the canonical one. -/
theorem not_every_upgrade_keeps_the_request :
    ¬∀ (m : ParamMap) (p : ScanParams), schema.ofJson m.toJson = .ok p →
      ∃ p', schema.ofJson (upgrade m).params.toJson = .ok p'
        ∧ p'.build.params = p.build.params := by
  intro keeps
  obtain ⟨p', reads, same⟩ := keeps
    (ParamMap.ofMembers [("enable_driver", .null), ("merge", .bool true)])
    { empty with merge := some true } rfl
  have lost : p' = empty := Except.ok.inj (reads.symm.trans rfl)
  have sent := congrArg (fun params => params.get? "enable_driver") same
  rw [lost] at sent
  simp only [get?_build_driver] at sent
  exact nomatch sent

end Upgrade

end AccelControl.ScanParams
