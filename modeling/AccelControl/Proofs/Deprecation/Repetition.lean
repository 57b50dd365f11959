import AccelControl.Proofs.Deprecation

/-! Upgrading again.

What is left after upgrading has no value under a name from which values are moved, and that is all
it takes for parameters to stay as they are. So a second run moves nothing. It only asks again for
the decisions for which the first one asked.
-/

set_option autoImplicit false

namespace AccelControl.BuiltParams

open DeprecatedParam

def Current (m : ParamMap) : Prop := ∀ param ∈ moved, m.get? param.deprecated = none

theorem current_upgrade (m : ParamMap) : Current (upgrade m).params :=
  fun _ mem => get?_upgrade_deprecated mem m

theorem foldl_move_of_missing {params : List DeprecatedParam} {m : ParamMap}
    (missing : ∀ param ∈ params, m.get? param.deprecated = none) : params.foldl move m = m := by
  induction params with
  | nil => rfl
  | cons param params ih =>
    obtain ⟨here, later⟩ := List.forall_mem_cons.1 missing
    rw [List.foldl_cons, move_of_missing here, ih later]

/-- Upgrading keeps exactly the parameters in which nothing is left to move. -/
theorem upgrade_params_eq_self_iff {m : ParamMap} : (upgrade m).params = m ↔ Current m := by
  constructor
  · intro same
    rw [← same]
    exact current_upgrade m
  · intro current
    rw [upgrade_params, foldl_move_of_missing current]

/-- Of the deprecated names in use those stay whose values are not moved. -/
theorem contains_upgrade_deprecated {param : DeprecatedParam} (mem : param ∈ table)
    (m : ParamMap) :
    (upgrade m).params.contains param.deprecated
      = (!param.notice.renamed && m.contains param.deprecated) := by
  by_cases same : param.polarity = .same
  · have gone := get?_upgrade_deprecated (mem_moved_iff.2 ⟨mem, same⟩) m
    simp [ParamMap.contains, gone, notice, same]
  · have kept := get?_upgrade_of_unmoved mem same m
    simp [ParamMap.contains, kept, notice, same]

/-- Upgrading what has been upgraded changes no parameter, and of the notices it raises again, in
their order, those whose values were not moved. -/
theorem upgrade_upgrade (m : ParamMap) :
    upgrade (upgrade m).params
      = ⟨(upgrade m).params, (upgrade m).notices.filter (!·.renamed)⟩ := by
  refine BuiltParams.ext (upgrade_params_eq_self_iff.2 (current_upgrade m)) ?_
  have stays : table.filter ((upgrade m).params.contains ·.deprecated)
      = table.filter fun param => !param.notice.renamed && m.contains param.deprecated :=
    List.filter_congr fun param mem => contains_upgrade_deprecated mem m
  rw [upgrade_notices, upgrade_notices, stays, List.filter_map, List.filter_filter]
  rfl

end AccelControl.BuiltParams
