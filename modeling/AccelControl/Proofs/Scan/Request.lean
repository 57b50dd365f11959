import AccelControl.Proofs.ParamMap
import AccelControl.Scan

/-! What a request for a scan says.

A request has ten names, each of which stands for one input, except that the name of the driver flag
stands for two. It says of each name what was given for it, and nothing of the others.
-/

set_option autoImplicit false

namespace AccelControl.ScanParams

theorem get?_add {α : Type} (params : ParamMap) (name : String) (value : Option α)
    (toJson : α → Json) (canonical : ∀ a, (toJson a).Canonical) (other : String) :
    (add params name value toJson canonical).get? other
      = if name = other then (value.map toJson).or (params.get? other) else params.get? other := by
  cases value with
  | none => simp [add]
  | some a =>
    by_cases same : name = other
    · subst same
      simp [add]
    · simp [add, same, ParamMap.get?_insert_of_ne _ (Ne.symm same)]

theorem sizeJson_eq (n : UInt32) :
    sizeJson n = .number (.integer ⟨n.toNat, by omega, by have := n.toNat_lt; omega⟩) := rfl

/-- The driver flag that is sent: the canonical one, or the deprecated one in its absence. -/
def driver (p : ScanParams) : Option Bool := p.enableDriver.or p.merge

def wire (p : ScanParams) : Members (Option Json) := [
  ("qp_size", p.qpSize.map sizeJson),
  ("cq_size", p.cqSize.map sizeJson),
  ("num_requests", p.numRequests.map sizeJson),
  ("crypto_split_blocks", p.cryptoSplitBlocks.map sizeJson),
  ("allowed_devs", (p.allowedDevs.map joined).map .string),
  ("qp_per_domain", p.qpPerDomain.map .bool),
  ("enable_driver", p.driver.map .bool),
  ("enable_module", p.enableModule.map .bool),
  ("disable_signature", p.disableSignature.map .bool),
  ("disable_crypto", p.disableCrypto.map .bool)]

theorem get?_build (p : ScanParams) (name : String) :
    p.build.params.get? name = (p.wire.get? name).join := by
  simp only [build, addSize, addFlag, get?_add _ _ _ sizeJson fun _ => trivial,
    get?_add _ _ _ Json.string fun _ => trivial, get?_add _ _ _ Json.bool fun _ => trivial,
    ParamMap.get?_empty, Option.or_none]
  -- Either the name is one of the ten, or it is passed over on both sides.
  by_cases known : name ∈ p.wire.map (·.1)
  · simp only [wire, List.map_cons, List.map_nil, List.mem_cons, List.not_mem_nil, or_false]
      at known
    rcases known with rfl | rfl | rfl | rfl | rfl | rfl | rfl | rfl | rfl | rfl <;>
      simp [wire, Members.get?_cons, driver, DeprecatedParam.merge, Option.map_or]
  · have absent := Members.get?_eq_none fun member mem same =>
      known (List.mem_map.2 ⟨member, mem, same⟩)
    simp only [wire, List.map_cons, List.map_nil, List.mem_cons, List.not_mem_nil, or_false, not_or]
      at known
    simp [absent, known, DeprecatedParam.merge, eq_comm]

theorem get?_build_driver (p : ScanParams) :
    p.build.params.get? "enable_driver" = p.driver.map .bool := by
  rw [get?_build]
  rfl

theorem build_params_congr {p q : ScanParams} (same : p.wire = q.wire) :
    p.build.params = q.build.params :=
  ParamMap.ext_get? fun name => by rw [get?_build, get?_build, same]

/-- Of the two flags for the driver a request shows only which one is sent. -/
theorem build_flags_iff (p : ScanParams) (enableDriver merge : Option Bool) :
    ({ p with enableDriver, merge } : ScanParams).build.params = p.build.params
      ↔ enableDriver.or merge = p.driver := by
  constructor
  · intro same
    have shown := congrArg (fun params => params.get? "enable_driver") same
    simp only [get?_build_driver] at shown
    exact Option.map_injective (fun _ _ => Json.bool.inj) shown
  · intro same
    apply build_params_congr
    simp only [wire, driver, same]

theorem flat_add {α : Type} {params : ParamMap} (flat : params.Flat) (name : String)
    (value : Option α) {toJson : α → Json} {canonical : ∀ a, (toJson a).Canonical}
    (plain : ∀ a, (toJson a).FloatFree) (single : ∀ a, (toJson a).depth = 0) :
    (add params name value toJson canonical).Flat := by
  cases value with
  | none => exact flat
  | some a => exact flat.insert name (canonical a) (plain a) (single a)

theorem flat_addSize {params : ParamMap} (flat : params.Flat) (name : String)
    (value : Option UInt32) : (addSize params name value).Flat :=
  flat_add flat name value (fun _ => trivial) fun _ => rfl

theorem flat_addFlag {params : ParamMap} (flat : params.Flat) (name : String)
    (value : Option Bool) : (addFlag params name value).Flat :=
  flat_add flat name value (fun _ => trivial) fun _ => rfl

theorem flat_build (p : ScanParams) : p.build.params.Flat := by
  unfold build
  iterate 6 apply flat_addFlag
  refine flat_add ?_ _ _ (fun _ => trivial) fun _ => rfl
  iterate 4 apply flat_addSize
  exact ParamMap.flat_empty

end AccelControl.ScanParams
