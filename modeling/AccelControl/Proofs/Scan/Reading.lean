import AccelControl.Proofs.ParamMap
import AccelControl.Proofs.Schema.Record
import AccelControl.Scan

/-! How the parameters of a scan are read from a map.

Each of the eleven names stands for a part of its own, so a map is read name by name, in any order.
-/

set_option autoImplicit false

namespace AccelControl.ScanParams

def mergeSlot : Slot ScanParams :=
  ⟨_, "merge", .option .bool, (·.merge), fun value p => { p with merge := value }⟩

def enableDriverSlot : Slot ScanParams :=
  ⟨_, "enable_driver", .option .bool, (·.enableDriver),
    fun value p => { p with enableDriver := value }⟩

def slots : List (Slot ScanParams) := [
  ⟨_, "qp_size", .option .word32, (·.qpSize), fun value p => { p with qpSize := value }⟩,
  ⟨_, "cq_size", .option .word32, (·.cqSize), fun value p => { p with cqSize := value }⟩,
  ⟨_, "num_requests", .option .word32, (·.numRequests),
    fun value p => { p with numRequests := value }⟩,
  ⟨_, "crypto_split_blocks", .option .word32, (·.cryptoSplitBlocks),
    fun value p => { p with cryptoSplitBlocks := value }⟩,
  ⟨_, "allowed_devs", .option (.list .string), (·.allowedDevs),
    fun value p => { p with allowedDevs := value }⟩,
  mergeSlot,
  ⟨_, "qp_per_domain", .option .bool, (·.qpPerDomain),
    fun value p => { p with qpPerDomain := value }⟩,
  enableDriverSlot,
  ⟨_, "enable_module", .option .bool, (·.enableModule),
    fun value p => { p with enableModule := value }⟩,
  ⟨_, "disable_signature", .option .bool, (·.disableSignature),
    fun value p => { p with disableSignature := value }⟩,
  ⟨_, "disable_crypto", .option .bool, (·.disableCrypto),
    fun value p => { p with disableCrypto := value }⟩]

theorem mergeSlot_mem : mergeSlot ∈ slots := by simp [slots]

theorem enableDriverSlot_mem : enableDriverSlot ∈ slots := by simp [slots]

theorem record_laidOut : record.LaidOut slots where
  fields := rfl
  distinct := by decide
  get_set := by simp [slots, mergeSlot, enableDriverSlot]
  get_set_of_ne := by simp [slots, mergeSlot, enableDriverSlot]
  ext p q same := by
    cases p
    cases q
    simpa [slots, mergeSlot, enableDriverSlot] using same

/-- Parameters read if all their names are known and each part is what its value says. -/
theorem reads_iff {m : ParamMap} {p : ScanParams} :
    schema.ofJson m.toJson = .ok p
      ↔ (∀ name, m.contains name = true → name ∈ record.fieldNames)
        ∧ ∀ slot ∈ slots, slot.schema.orElse (slot.get empty) (m.get? slot.name)
            = .ok (slot.get p) := by
  refine (record_laidOut.ofJson_object_iff m.ascending).trans (and_congr_left fun _ => ?_)
  simp only [ParamMap.contains_iff, List.forall_mem_map]
  exact forall_prop_of_true rfl

end AccelControl.ScanParams
