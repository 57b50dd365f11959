import AccelControl.Proofs.Scan.Agreement
import AccelControl.Proofs.Scan.Grammar

/-! The parameters of a scan, saved as JSON and read back.

What is not given is saved as null, so that an empty list of names is not mistaken for a missing one.
-/

set_option autoImplicit false

namespace AccelControl.ScanParams

variable {p : ScanParams}

theorem distinct_entries : (p.entries.map (·.1)).Nodup := distinct_fieldKinds

theorem known_entries : ∀ entry ∈ p.entries, entry.1 ∈ record.fieldNames := by
  intro entry mem
  exact List.mem_map_of_mem (f := (·.1)) mem

theorem read_entries : ∀ slot ∈ slots, slot.read empty p.entries = .ok (slot.get p) := by
  apply parts_iff.2
  rfl

theorem storable_namesJson (names : List String) : (namesJson names).Storable where
  plain := Json.floatFreeItems_iff.2 (List.forall_mem_map.2 fun _ _ => trivial)
  canonical := Json.canonicalItems_iff.2 (List.forall_mem_map.2 fun _ _ => trivial)
  shallow := by
    have flat : Json.itemsDepth (names.map .string) ≤ 0 :=
      Json.itemsDepth_le_iff.2 (List.forall_mem_map.2 fun _ _ => Nat.le_refl 0)
    rw [namesJson, Json.depth, Nat.le_zero.1 flat]
    decide

theorem storable_ofOption {α : Type} (toJson : α → Json) (storable : ∀ a, (toJson a).Storable)
    (a? : Option α) : (Json.ofOption toJson a?).Storable := by
  cases a? with
  | none => exact ⟨trivial, trivial, Nat.zero_lt_succ _⟩
  | some a => exact storable a

theorem storable_entries : ∀ entry ∈ p.entries, entry.2.Storable := by
  have size := storable_ofOption sizeJson fun _ => ⟨trivial, trivial, Nat.zero_lt_succ _⟩
  have names := storable_ofOption namesJson storable_namesJson
  have flag := storable_ofOption Json.bool fun _ => ⟨trivial, trivial, Nat.zero_lt_succ _⟩
  simp [entries, size, names, flag]

/-- Parameters are read back from what they are saved as, directly and by way of a value: from the
text in the order of their fields, from the text of their value, and from the value itself. So the
request that is built from them stays the same. -/
theorem saved_restored (p : ScanParams) :
    (schema.parse (Json.object p.entries).bytes = .ok p
        ∧ schema.parseValue (Json.object p.entries).bytes = .ok p)
      ∧ (schema.parse p.toJson.bytes = .ok p ∧ schema.parseValue p.toJson.bytes = .ok p)
      ∧ schema.ofJson p.toJson = .ok p
      ∧ (schema.parse (Json.object p.entries).bytes).map build = .ok p.build
      ∧ (schema.parseValue p.toJson.bytes).map build = .ok p.build := by
  obtain ⟨declared, ascending, value⟩ := record_laidOut.reads_saved slots_faithful (by decide)
    distinct_entries known_entries storable_entries (read_entries (p := p))
  have builds {found : Except Json.Fault ScanParams} (read : found = .ok p) :
      found.map build = .ok p.build := by
    rw [read]
    rfl
  exact ⟨declared, ascending, value, builds declared.1, builds ascending.2⟩

end AccelControl.ScanParams
