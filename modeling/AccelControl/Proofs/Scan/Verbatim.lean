import AccelControl.Proofs.Scan.Upgrade

/-! Parameters under the names of their inputs.

There are two ways from what a caller gives to a request: to build it, or to write down every input
under its own name, the deprecated one too, and to upgrade that. Both come to the same, notices
included.
-/

set_option autoImplicit false

namespace AccelControl.ScanParams

open BuiltParams DeprecatedParam

def inputs (p : ScanParams) : Members (Option Json) := [
  ("qp_size", p.qpSize.map sizeJson),
  ("cq_size", p.cqSize.map sizeJson),
  ("num_requests", p.numRequests.map sizeJson),
  ("crypto_split_blocks", p.cryptoSplitBlocks.map sizeJson),
  ("allowed_devs", (p.allowedDevs.map joined).map .string),
  ("merge", p.merge.map .bool),
  ("qp_per_domain", p.qpPerDomain.map .bool),
  ("enable_driver", p.enableDriver.map .bool),
  ("enable_module", p.enableModule.map .bool),
  ("disable_signature", p.disableSignature.map .bool),
  ("disable_crypto", p.disableCrypto.map .bool)]

def verbatim (p : ScanParams) : ParamMap := .ofGiven p.inputs

variable (p : ScanParams)

theorem inputs_names : p.inputs.map (·.1) = record.fieldNames := rfl

theorem canonical_inputs :
    ∀ input ∈ p.inputs, ∀ value, input.2 = some value → value.Canonical := by
  have scalar {α : Type} (input : Option α) {toJson : α → Json}
      (canonical : ∀ a, (toJson a).Canonical) (value : Json)
      (given : input.map toJson = some value) : value.Canonical := by
    obtain ⟨a, -, rfl⟩ := Option.map_eq_some_iff.1 given
    exact canonical a
  simp only [inputs, List.forall_mem_cons]
  refine ⟨?_, ?_, ?_, ?_, ?_, ?_, ?_, ?_, ?_, ?_, ?_, nofun⟩ <;>
    exact scalar _ fun _ => trivial

theorem get?_verbatim (name : String) :
    p.verbatim.get? name = (p.inputs.get? name).join :=
  ParamMap.get?_ofGiven (by rw [inputs_names]; decide) p.canonical_inputs name

theorem known_of_verbatim (name : String) (present : p.verbatim.contains name = true) :
    name ∈ record.fieldNames := by
  by_contra unknown
  have absent : p.inputs.get? name = none := Members.get?_eq_none fun input mem same =>
    unknown (p.inputs_names ▸ List.mem_map.2 ⟨input, mem, same⟩)
  rw [ParamMap.contains, get?_verbatim, absent] at present
  cases present

-- But for the deprecated flag and the one in its place, a request has the inputs as they are.
theorem get?_build_of_ne {name : String} (notMerge : name ≠ "merge")
    (notDriver : name ≠ "enable_driver") :
    p.build.params.get? name = p.verbatim.get? name := by
  rw [get?_build, get?_verbatim]
  simp only [wire, inputs, Members.get?_cons, notMerge.symm, notDriver.symm, if_false]

theorem upgrade_verbatim_params : (upgrade p.verbatim).params = p.build.params := by
  refine ParamMap.ext_get? fun name => ?_
  by_cases isMerge : name = "merge"
  · rw [isMerge, get?_upgrade_merge, get?_build]
    rfl
  by_cases isDriver : name = "enable_driver"
  · have own : p.verbatim.get? "enable_driver" = p.enableDriver.map .bool := p.get?_verbatim _
    have old : p.verbatim.get? "merge" = p.merge.map .bool := p.get?_verbatim _
    rw [isDriver, get?_upgrade_enableDriver, get?_build_driver, own, old, driver, Option.map_or]
  rw [get?_build_of_ne p isMerge isDriver]
  by_cases field : name ∈ record.fieldNames
  · exact get?_upgrade_of_known p.known_of_verbatim field isMerge isDriver
  · rw [ParamMap.get?_eq_none_of_not_contains fun present => field (p.known_of_verbatim _ present),
      ParamMap.get?_eq_none_of_not_contains fun present =>
        field (known_upgrade p.known_of_verbatim present)]

-- Of all deprecated names only that of the flag can occur.
theorem upgrade_verbatim_notices : (upgrade p.verbatim).notices = p.build.notices := by
  have foreign : ∀ param ∈ table.tail, param.deprecated ∉ record.fieldNames := by decide
  have others : table.tail.filter (p.verbatim.contains ·.deprecated) = [] :=
    List.filter_eq_nil_iff.2 fun param mem present =>
      foreign param mem (p.known_of_verbatim _ present)
  have used : p.verbatim.contains DeprecatedParam.merge.deprecated = p.merge.isSome := by
    rw [ParamMap.contains, get?_verbatim]
    exact Option.isSome_map
  have split : table = DeprecatedParam.merge :: table.tail := rfl
  rw [upgrade_notices, split, List.filter_cons, others, used, build]
  split <;> rfl

/-- To build a request from what is given comes to the same as to write that down, every input under
its own name, and to upgrade it: the same parameters and the same notices in the same order. -/
theorem upgrade_verbatim : upgrade p.verbatim = p.build :=
  BuiltParams.ext p.upgrade_verbatim_params p.upgrade_verbatim_notices

end AccelControl.ScanParams
