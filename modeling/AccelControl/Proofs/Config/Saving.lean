import AccelControl.Config.Basic
import AccelControl.Proofs.Duration.Units
import AccelControl.Proofs.Schema.Agreement

/-! The configuration of a client, saved as JSON and read back. -/

set_option autoImplicit false

namespace AccelControl

theorem Duration.ofField_units (d : Duration) : ofField d.units = .ok d := by
  rw [ofField, ofUnits?_units]

theorem Duration.faithful_schema : Duration.schema.Faithful 0 :=
  Schema.faithful_scalar fun _ => by simp

namespace ClientConfig

open Schema (Reads faithful_integer faithful_string)

def slots : List (Slot ClientConfig) := [
  ⟨_, "server_addr", .string, (·.serverAddr), fun serverAddr c => { c with serverAddr }⟩,
  ⟨_, "port", .word16, (·.port), fun port c => { c with port }⟩,
  ⟨_, "timeout", Duration.schema, (·.timeout), fun timeout c => { c with timeout }⟩,
  ⟨_, "conn_retries", .count, (·.connRetries), fun connRetries c => { c with connRetries }⟩]

theorem record_laidOut : record.LaidOut slots where
  fields := rfl
  distinct := by decide
  get_set := by simp [slots]
  get_set_of_ne := by simp [slots]
  ext c c' same := by
    cases c
    cases c'
    simpa [slots] using same

theorem slots_faithful : ∀ slot ∈ slots, slot.schema.Faithful 0 := by
  simp only [slots, List.forall_mem_cons, List.not_mem_nil, false_imp_iff, implies_true, and_true]
  exact ⟨faithful_string, (faithful_integer 0 0xFFFF "u16").map _, Duration.faithful_schema,
    (faithful_integer 0 0xFFFFFFFFFFFFFFFF "usize").map _⟩

theorem reads_port : Schema.word16.Reads fun port => .ofUInt64 port.toUInt64 := by
  refine Schema.reads_word (fun n => ?_) (fun n => ?_) fun i lower upper => ?_
  · have := n.toNat_lt
    rw [UInt16.toNat_toUInt64]
    omega
  · simp
  · simp only [UInt16.toNat_toUInt64, UInt16.toNat_ofNat']
    omega

theorem reads_retries : Schema.count.Reads Json.ofUInt64 := by
  refine Schema.reads_word (fun n => ?_) (fun n => ?_) fun i lower upper => ?_
  · have := n.toNat_lt
    omega
  · simp
  · simp only [UInt64.toNat_ofNat']
    omega

variable {c : ClientConfig}

theorem distinct_entries : (c.entries.map (·.1)).Nodup := record_laidOut.distinct

theorem known_entries : ∀ entry ∈ c.entries, entry.1 ∈ record.fieldNames := by
  simp [entries, record, Record.fieldNames, Field.of]

theorem storable_entries : ∀ entry ∈ c.entries, entry.2.Storable := by
  have text (s : String) : (Json.string s).Storable := ⟨trivial, trivial, Nat.zero_lt_succ _⟩
  have number (n : UInt64) : (Json.ofUInt64 n).Storable := ⟨trivial, trivial, Nat.zero_lt_succ _⟩
  simp [entries, text, number]

theorem read_entries : ∀ slot ∈ slots, slot.read unwritten c.entries = .ok (slot.get c) := by
  simp only [slots, List.forall_mem_cons, List.not_mem_nil, false_imp_iff, implies_true, and_true]
  exact ⟨rfl, (reads_port _ _).2 rfl, Duration.ofField_units c.timeout, (reads_retries _ _).2 rfl⟩

/-- A configuration is read back from what it is saved as, directly and by way of a value: from the text
in the order of its fields, from the text of its value, and from the value itself. -/
theorem saved_reads_back (c : ClientConfig) :
    schema.parse (Json.object c.entries).bytes = .ok c ∧
      schema.parseValue (Json.object c.entries).bytes = .ok c ∧
      schema.parse c.toJson.bytes = .ok c ∧
      schema.parseValue c.toJson.bytes = .ok c ∧
      schema.ofJson c.toJson = .ok c := by
  have sorted := Members.ascending_ofEntries c.entries
  have same := Members.get?_ofEntries (distinct_entries (c := c))
  have enough : 0 < Json.greatestDepth := by decide
  obtain ⟨declared, declared'⟩ := record_laidOut.reads_text slots_faithful enough distinct_entries
    (fun _ => rfl) known_entries storable_entries read_entries
  obtain ⟨ascending, ascending'⟩ := record_laidOut.reads_text slots_faithful enough sorted.nodup
    same known_entries storable_entries read_entries
  refine ⟨declared, declared', ascending, ascending', ?_⟩
  exact (record_laidOut.ofJson_object_iff sorted).2 ⟨nofun, fun slot mem => by
    rw [Slot.read, same]
    exact read_entries slot mem⟩

end ClientConfig

end AccelControl
