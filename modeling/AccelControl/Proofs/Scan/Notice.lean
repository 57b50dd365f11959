import AccelControl.Proofs.Deprecation
import AccelControl.Proofs.Scan.Request

/-! What a notice says of the value it is about.

A notice always tells the truth of a value that stays where it is. Of a value that should move it
says that it was moved, also when it was dropped, because the canonical name had a value of its own.
That is wrong unless the two are the same.
-/

set_option autoImplicit false

namespace AccelControl

/-- What a notice says is true of a change: a value that was moved is gone from the deprecated name
and stands under the canonical one; otherwise both names are as they were. -/
def Notice.Truthful (before after : ParamMap) (notice : Notice) : Prop :=
  if notice.renamed then
    after.get? notice.param.deprecated = none
      ∧ after.get? notice.param.canonical = before.get? notice.param.deprecated
  else
    after.get? notice.param.deprecated = before.get? notice.param.deprecated
      ∧ after.get? notice.param.canonical = before.get? notice.param.canonical

/-- A value is reported as moved although the canonical name has another one of its own. -/
def Notice.Overruled (before : ParamMap) (notice : Notice) : Prop :=
  notice.renamed = true ∧ ∃ own, before.get? notice.param.canonical = some own
    ∧ before.get? notice.param.deprecated ≠ some own

namespace BuiltParams

open DeprecatedParam

theorem get?_deprecated_of_renamed {m : ParamMap} {notice : Notice}
    (raised : notice ∈ (upgrade m).notices) (renamed : notice.renamed = true) :
    (upgrade m).params.get? notice.param.deprecated = none := by
  obtain ⟨param, mem, rfl⟩ := exists_of_mem_notices raised
  exact get?_upgrade_deprecated (mem_moved_iff.2 ⟨mem, of_decide_eq_true renamed⟩) m

theorem truthful_upgrade_iff {m : ParamMap} {notice : Notice}
    (raised : notice ∈ (upgrade m).notices) :
    notice.Truthful m (upgrade m).params ↔ ¬notice.Overruled m := by
  obtain ⟨param, mem, rfl⟩ := exists_of_mem_notices raised
  -- Only the entries whose values move depend on what the canonical name has.
  by_cases same : param.polarity = .same
  · have moves := mem_moved_iff.2 ⟨mem, same⟩
    have gone := get?_upgrade_deprecated moves m
    have there := get?_upgrade_canonical_of_moved moves m
    simp only [Notice.Truthful, Notice.Overruled, notice, same, decide_true, if_true, gone, there,
      true_and]
    cases m.get? param.canonical with
    | none => simp
    | some own => simp [eq_comm]
  · have kept := get?_upgrade_of_unmoved mem same m
    have still := get?_upgrade_canonical_of_unmoved mem same m
    simp [Notice.Truthful, Notice.Overruled, notice, same, kept, still]

end BuiltParams

namespace ScanParams

open BuiltParams

theorem mem_build_notices_iff {p : ScanParams} {notice : Notice} :
    notice ∈ p.build.notices ↔ p.merge.isSome = true ∧ notice = ⟨.merge, true⟩ := by
  unfold build
  by_cases given : p.merge.isSome = true <;> simp [given]

theorem sent_build_iff {p : ScanParams} {notice : Notice} (raised : notice ∈ p.build.notices) :
    p.build.params.get? notice.param.canonical = p.merge.map .bool
      ↔ p.enableDriver = none ∨ p.enableDriver = p.merge := by
  obtain ⟨given, rfl⟩ := mem_build_notices_iff.1 raised
  have shown : p.build.params.get? DeprecatedParam.merge.canonical = p.driver.map .bool :=
    p.get?_build_driver
  rw [shown, (Option.map_injective fun _ _ => Json.bool.inj).eq_iff, driver]
  cases p.enableDriver with
  | none => simp
  | some own => simp

/-- What upgrading reports as moved is gone from its deprecated name, but the report is true exactly
if no other value of the canonical name overruled it. A request reports the deprecated flag as moved
whenever it is given, and that is true exactly if the canonical flag is not given with another
value. -/
theorem notice_truthful_iff (m : ParamMap) (p : ScanParams) :
    (∀ notice ∈ (upgrade m).notices,
        (notice.renamed = true → (upgrade m).params.get? notice.param.deprecated = none) ∧
          (notice.Truthful m (upgrade m).params ↔ ¬notice.Overruled m)) ∧
      ∀ notice ∈ p.build.notices, notice.renamed = true ∧
        (p.build.params.get? notice.param.canonical = p.merge.map .bool
          ↔ p.enableDriver = none ∨ p.enableDriver = p.merge) := by
  constructor
  · exact fun notice raised => ⟨get?_deprecated_of_renamed raised, truthful_upgrade_iff raised⟩
  · intro notice raised
    obtain ⟨-, same⟩ := mem_build_notices_iff.1 raised
    exact ⟨congrArg Notice.renamed same, sent_build_iff raised⟩

/-- A value that was dropped is reported as moved, by upgrading and by building alike. -/
theorem not_every_notice_truthful :
    (¬∀ m, ∀ notice ∈ (upgrade m).notices, notice.Truthful m (upgrade m).params) ∧
      ¬∀ p : ScanParams, ∀ notice ∈ p.build.notices, notice.renamed = true →
        p.build.params.get? notice.param.canonical = p.merge.map .bool := by
  constructor
  · intro truthful
    have raised : ⟨.merge, true⟩ ∈ (upgrade (ParamMap.ofMembers
        [("enable_driver", .bool true), ("merge", .bool false)])).notices :=
      List.mem_singleton.2 rfl
    exact (truthful_upgrade_iff raised).1 (truthful _ _ raised) ⟨rfl, .bool true, rfl, nofun⟩
  · intro sent
    have raised : ⟨.merge, true⟩ ∈
        (setAll empty [.enableDriver true, .merge false]).build.notices :=
      mem_build_notices_iff.2 ⟨rfl, rfl⟩
    exact absurd ((sent_build_iff raised).1 (sent _ _ raised rfl)) (by decide)

end ScanParams

end AccelControl
