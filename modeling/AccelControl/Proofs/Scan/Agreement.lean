import AccelControl.Proofs.Scan.Reading
import AccelControl.Proofs.Schema.Agreement

/-! The parameters of a scan in a text, read directly and by way of a value. -/

set_option autoImplicit false

namespace AccelControl.ScanParams

open Schema (faithful_bool faithful_integer faithful_string)
open Json (RepeatsName writtenMembers?)

-- A list of names is the only part with brackets of its own.
theorem slots_faithful : ∀ slot ∈ slots, slot.schema.Faithful 1 := by
  have size : (Schema.option .word32).Faithful 1 :=
    ((faithful_integer 0 0xFFFFFFFF "u32").map _).option.mono (Nat.zero_le 1)
  have names : (Schema.option (.list .string)).Faithful 1 := faithful_string.list.option
  have flag : (Schema.option .bool).Faithful 1 := faithful_bool.option.mono (Nat.zero_le 1)
  simp only [slots, mergeSlot, enableDriverSlot, List.forall_mem_cons, List.not_mem_nil, false_imp_iff,
    implies_true, and_true]
  exact ⟨size, size, size, size, names, flag, flag, flag, flag, flag, flag⟩

/-- Parameters are read directly from a text exactly if they are read from its value and the text, if it
is that of an object, repeats no name. So the two ways never read different parameters, except where a
name is repeated, and then nothing is read directly. The members of the value of an object are those that
its text writes. -/
theorem parse_agrees (s : Bytes) :
    (∀ p, schema.parse s = .ok p ↔ schema.parseValue s = .ok p ∧ ¬RepeatsName s) ∧
      (∀ p q, schema.parse s = .ok p → schema.parseValue s = .ok q → p = q) ∧
      (RepeatsName s → ∃ fault, schema.parse s = .error fault) ∧
      ∀ members, Json.parse s = .ok (.object members) →
        ∃ entries, writtenMembers? s = some entries ∧ members = Members.ofEntries entries := by
  have agree (p : ScanParams) : schema.parse s = .ok p ↔ schema.parseValue s = .ok p ∧ ¬RepeatsName s :=
    record_laidOut.parse_iff_parseValue slots_faithful (by decide) rfl
  refine ⟨agree, fun p q read read' => ?_, fun repeated => ?_, fun _ => Json.parse_object_iff.1⟩
  · exact Except.ok.inj (((agree p).1 read).1.symm.trans read')
  · cases read : schema.parse s with
    | error fault => exact ⟨fault, rfl⟩
    | ok p => exact absurd repeated ((agree p).1 read).2

-- The second name is the first one, with its first letter escaped.
example :
    let s := Utf8.encode "\x7b\"merge\":true,\"\\u006derge\":false\x7d".toList
    schema.parse s = .error (.mismatch (.duplicateField "merge"))
      ∧ schema.parseValue s = .ok { empty with merge := some false } := by
  decide +kernel

end AccelControl.ScanParams
