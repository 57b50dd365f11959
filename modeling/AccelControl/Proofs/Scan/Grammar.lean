import AccelControl.Proofs.Scan.Reading
import AccelControl.Proofs.Scan.Setting
import AccelControl.Proofs.Schema.Acceptance

/-! Which values are parameters of a scan, and what they say.

There are three kinds of fields. A value is accepted if it gives entries for fields only, each of them
null or of the field's kind, be it by name or by place; every field then is what its entry says.
-/

set_option autoImplicit false

namespace AccelControl.ScanParams

open Schema (Reads)

inductive FieldKind where
  | size
  | names
  | flag
  deriving DecidableEq, Repr

def FieldKind.Holds : FieldKind → Json → Prop
  | .size, v => ∃ i : Json.Integer, v = .number (.integer i) ∧ 0 ≤ i.value ∧ i.value < UInt32.size
  | .names, v => ∃ names : List String, v = .array (names.map .string)
  | .flag, v => ∃ b, v = .bool b

def FieldKind.Allows (kind : FieldKind) (v : Json) : Prop := v = .null ∨ kind.Holds v

def fieldKinds : List (String × FieldKind) := [
  ("qp_size", .size), ("cq_size", .size), ("num_requests", .size), ("crypto_split_blocks", .size),
  ("allowed_devs", .names), ("merge", .flag), ("qp_per_domain", .flag), ("enable_driver", .flag),
  ("enable_module", .flag), ("disable_signature", .flag), ("disable_crypto", .flag)]

/-- Entries for fields only, each of which its field allows: the members of an object, or the items of
an array in the order of the fields. -/
inductive Grammatical : Json → Prop
  | object {members : List (String × Json)}
      (allowed : ∀ member ∈ members, ∃ kind, (member.1, kind) ∈ fieldKinds ∧ kind.Allows member.2) :
      Grammatical (.object members)
  | array {items : List Json} (few : items.length ≤ fieldKinds.length)
      (allowed : ∀ pair ∈ fieldKinds.zip items, pair.1.2.Allows pair.2) : Grammatical (.array items)

/-- The entry that a value gives for a field, by its name or by its place. -/
def given? (name : String) : Json → Option Json
  | .object members => Members.get? name members
  | .array items => Members.get? name ((fieldKinds.map (·.1)).zip items)
  | .null | .bool _ | .number _ | .string _ => none

def Setting.json : Setting → Json
  | .qpSize n | .cqSize n | .numRequests n | .cryptoSplitBlocks n => sizeJson n
  | .allowedDevs names => namesJson names
  | .merge b | .qpPerDomain b | .enableDriver b | .enableModule b | .disableSignature b
  | .disableCrypto b => .bool b

theorem fieldNames_eq : record.fieldNames = fieldKinds.map (·.1) := rfl

theorem distinct_fieldKinds : (fieldKinds.map (·.1)).Nodup := record_laidOut.distinct_fieldNames

theorem kind_unique {name : String} {kind kind' : FieldKind} (mem : (name, kind) ∈ fieldKinds)
    (mem' : (name, kind') ∈ fieldKinds) : kind = kind' := by
  have found := Members.get?_of_mem distinct_fieldKinds mem
  rw [Members.get?_of_mem distinct_fieldKinds mem'] at found
  exact (Option.some.inj found).symm

section kinds

theorem reads_size : Schema.word32.Reads sizeJson := by
  refine Schema.reads_word (fun n => ?_) (fun n => ?_) fun i lower upper => ?_
  · have := n.toNat_lt
    rw [UInt32.toNat_toUInt64]
    omega
  · simp
  · simp only [UInt32.toNat_toUInt64, UInt32.toNat_ofNat']
    omega

theorem size_holds_iff {v : Json} : FieldKind.size.Holds v ↔ ∃ n, v = sizeJson n := by
  simp only [← reads_size _ _, Schema.word32, Schema.map_ofJson_iff, Schema.integer_ofJson_iff,
    FieldKind.Holds, UInt32.size]
  constructor
  · rintro ⟨i, rfl, lower, upper⟩
    exact ⟨_, i.value, ⟨i, rfl, rfl, lower, by omega⟩, rfl⟩
  · rintro ⟨n, _, ⟨i, rfl, rfl, lower, upper⟩, -⟩
    exact ⟨i, rfl, lower, by omega⟩

theorem names_holds_iff {v : Json} : FieldKind.names.Holds v ↔ ∃ names, v = namesJson names :=
  Iff.rfl

theorem flag_holds_iff {v : Json} : FieldKind.flag.Holds v ↔ ∃ b, v = .bool b := Iff.rfl

theorem allows_iff {α : Type} {kind : FieldKind} {toJson : α → Json} {v : Json}
    (holds : kind.Holds v ↔ ∃ a, v = toJson a) :
    kind.Allows v ↔ ∃ a?, v = .ofOption toJson a? := by
  rw [Option.exists]
  exact or_congr Iff.rfl holds

variable {member : Option Json}

theorem size_read_iff {n? : Option UInt32} :
    (Schema.option .word32).orElse none member = .ok n?
      ↔ member.getD .null = .ofOption sizeJson n? :=
  reads_size.orElse_none_iff fun _ => nofun

theorem names_read_iff {names? : Option (List String)} :
    (Schema.option (.list .string)).orElse none member = .ok names?
      ↔ member.getD .null = .ofOption namesJson names? :=
  Schema.reads_string.list.orElse_none_iff fun _ => nofun

theorem flag_read_iff {b? : Option Bool} :
    (Schema.option .bool).orElse none member = .ok b? ↔ member.getD .null = .ofOption .bool b? :=
  Schema.reads_bool.orElse_none_iff fun _ => nofun

end kinds

variable {entries : List (String × Json)} {p : ScanParams}

/-- The entries as the parameters would write them, with null for those that are missing. -/
def written (entries : List (String × Json)) : List (String × Json) :=
  fieldKinds.map fun field => (field.1, (Members.get? field.1 entries).getD .null)

theorem parts_iff :
    (∀ slot ∈ slots, slot.read empty entries = .ok (slot.get p)) ↔ written entries = p.entries := by
  simp only [slots, mergeSlot, enableDriverSlot, List.forall_mem_cons, Slot.read, empty,
    size_read_iff, names_read_iff, flag_read_iff, List.not_mem_nil, false_imp_iff, implies_true,
    and_true, ScanParams.entries, written, fieldKinds, List.map_cons, List.map_nil, List.cons.injEq,
    Prod.mk.injEq, true_and]

theorem allowed_iff :
    (∀ slot ∈ slots, ∃ part, slot.read empty entries = .ok part)
      ↔ ∀ field ∈ fieldKinds, field.2.Allows ((Members.get? field.1 entries).getD .null) := by
  simp only [slots, mergeSlot, enableDriverSlot, fieldKinds, List.forall_mem_cons, Slot.read, empty,
    size_read_iff, names_read_iff, flag_read_iff, allows_iff size_holds_iff,
    allows_iff names_holds_iff, allows_iff flag_holds_iff, List.not_mem_nil, false_imp_iff,
    implies_true]

theorem allowed_entries_iff (distinct : (entries.map (·.1)).Nodup) :
    ((∀ entry ∈ entries, entry.1 ∈ record.fieldNames)
        ∧ ∀ field ∈ fieldKinds, field.2.Allows ((Members.get? field.1 entries).getD .null))
      ↔ ∀ entry ∈ entries, ∃ kind, (entry.1, kind) ∈ fieldKinds ∧ kind.Allows entry.2 := by
  constructor
  · rintro ⟨known, allowed⟩ ⟨name, v⟩ mem
    obtain ⟨⟨_, kind⟩, inside, rfl⟩ := List.mem_map.1 (fieldNames_eq ▸ known _ mem)
    have here := allowed _ inside
    rw [Members.get?_of_mem distinct mem] at here
    exact ⟨kind, inside, here⟩
  · intro allowed
    refine ⟨fun entry mem => ?_, fun field mem => ?_⟩
    · obtain ⟨kind, inside, -⟩ := allowed entry mem
      exact fieldNames_eq ▸ List.mem_map.2 ⟨_, inside, rfl⟩
    · cases found : Members.get? field.1 entries with
      | none => exact .inl rfl
      | some v =>
        obtain ⟨kind, inside, here⟩ := allowed _ (Members.mem_of_get? found)
        exact kind_unique inside mem ▸ here

theorem allowed_items_iff {items : List Json} :
    (∀ pair ∈ fieldKinds.zip items, pair.1.2.Allows pair.2)
      ↔ ∀ entry ∈ record.fieldNames.zip items,
          ∃ kind, (entry.1, kind) ∈ fieldKinds ∧ kind.Allows entry.2 := by
  rw [fieldNames_eq, List.zip_map_left, List.forall_mem_map]
  refine forall₂_congr fun pair mem => ?_
  have inside := (List.of_mem_zip mem).1
  exact ⟨fun allowed => ⟨_, inside, allowed⟩,
    fun ⟨kind, inside', allowed⟩ => kind_unique inside' inside ▸ allowed⟩

theorem grammatical_iff {v : Json} :
    Grammatical v ↔ ∃ entries, record.entries? v = some entries
      ∧ ∀ entry ∈ entries, ∃ kind, (entry.1, kind) ∈ fieldKinds ∧ kind.Allows entry.2 := by
  constructor
  · rintro (allowed | ⟨few, allowed⟩)
    · exact ⟨_, rfl, allowed⟩
    · exact ⟨_, if_pos few, allowed_items_iff.1 allowed⟩
  · rintro ⟨entries, gives, allowed⟩
    cases v with
    | object members =>
      cases gives
      exact .object allowed
    | array items =>
      rw [Record.entries?, Option.ite_none_right_eq_some] at gives
      obtain ⟨few, ⟨⟩⟩ := gives
      exact .array few (allowed_items_iff.2 allowed)
    | _ => cases gives

theorem given?_eq {v : Json} (gives : record.entries? v = some entries) (name : String) :
    given? name v = Members.get? name entries := by
  cases v with
  | object members =>
    cases gives
    rfl
  | array items =>
    rw [Record.entries?, Option.ite_none_right_eq_some] at gives
    obtain ⟨-, ⟨⟩⟩ := gives
    rfl
  | _ => cases gives

theorem accepts_iff {v : Json} (canonical : v.Canonical) :
    (∃ p, schema.ofJson v = .ok p) ↔ Grammatical v := by
  refine (record_laidOut.accepts_iff canonical).trans (Iff.trans ?_ grammatical_iff.symm)
  refine exists_congr fun entries => and_congr_right fun gives => ?_
  have distinct := record_laidOut.distinct_entries canonical gives
  rw [← allowed_entries_iff distinct, ← allowed_iff]
  exact and_congr (forall_prop_of_true rfl) Iff.rfl

theorem asks_iff_mem_entries {setting : Setting} :
    p.Asks setting ↔ (setting.name, setting.json) ∈ p.entries := by
  have size {n : UInt32} {n? : Option UInt32} : sizeJson n = .ofOption sizeJson n? ↔ n? = some n :=
    reads_size.eq_ofOption_iff fun _ => nofun
  have names {ns : List String} {ns? : Option (List String)} :
      namesJson ns = .ofOption namesJson ns? ↔ ns? = some ns :=
    Schema.reads_string.list.eq_ofOption_iff fun _ => nofun
  have flag {b : Bool} {b? : Option Bool} : Json.bool b = .ofOption .bool b? ↔ b? = some b :=
    Schema.reads_bool.eq_ofOption_iff fun _ => nofun
  cases setting <;>
    simp [Asks, ScanParams.entries, Setting.name, Setting.json, size, names, flag]

theorem Setting.json_ne_null (setting : Setting) : setting.json ≠ .null := by
  cases setting <;> nofun

theorem Setting.name_mem (setting : Setting) : ∃ kind, (setting.name, kind) ∈ fieldKinds := by
  cases setting <;> simp [name, fieldKinds]

theorem asks_iff_entry {v : Json} (canonical : v.Canonical) (read : schema.ofJson v = .ok p)
    (setting : Setting) : p.Asks setting ↔ given? setting.name v = some setting.json := by
  obtain ⟨entries, gives, -, parts⟩ := (record_laidOut.reads_iff canonical).1 read
  rw [asks_iff_mem_entries, ← parts_iff.1 parts, given?_eq gives]
  constructor
  · intro mem
    obtain ⟨field, -, same⟩ := List.mem_map.1 mem
    obtain ⟨named, given⟩ := Prod.mk.inj same
    rw [named] at given
    cases found : Members.get? setting.name entries with
    | none =>
      rw [found] at given
      exact absurd given.symm setting.json_ne_null
    | some v =>
      rw [found] at given
      exact congrArg some given
  · intro found
    obtain ⟨kind, mem⟩ := setting.name_mem
    exact List.mem_map.2 ⟨_, mem, by rw [found]; rfl⟩

/-- A value is accepted exactly if it is grammatical. Every field then is what its entry says, and none
if that is missing or null; so what a request has stems from an entry that is there. -/
theorem accepts_grammatical {v : Json} (canonical : v.Canonical) :
    ((∃ p, schema.ofJson v = .ok p) ↔ Grammatical v) ∧
      ∀ p, schema.ofJson v = .ok p →
        (∀ setting, p.Asks setting ↔ given? setting.name v = some setting.json) ∧
        p.entries = fieldKinds.map (fun field => (field.1, (given? field.1 v).getD .null)) ∧
        ∀ name, p.build.params.contains name = true → ∃ setting : Setting,
          setting.wireName = name ∧ given? setting.name v = some setting.json
            ∧ setting.json ≠ .null := by
  refine ⟨accepts_iff canonical, fun p read => ⟨asks_iff_entry canonical read, ?_, ?_⟩⟩
  · obtain ⟨entries, gives, -, parts⟩ := (record_laidOut.reads_iff canonical).1 read
    simp only [given?_eq gives]
    exact (parts_iff.1 parts).symm
  · intro name present
    obtain ⟨-, setting, asks, same⟩ := (p.contains_build_iff name).1 present
    exact ⟨setting, same, (asks_iff_entry canonical read setting).1 asks, setting.json_ne_null⟩

theorem accepts_grammatical_byPlace :
    let v : Json := .array [sizeJson 0xFFFFFFFF, .null, .null, .null, .array [.string "mlx5_0"]]
    let p : ScanParams :=
      { empty with qpSize := some 0xFFFFFFFF, allowedDevs := some ["mlx5_0"] }
    v.Canonical ∧ schema.ofJson v = .ok p ∧ Grammatical v
      ∧ ∀ setting, p.Asks setting ↔ given? setting.name v = some setting.json := by
  intro v p
  have canonical : v.Canonical := by simp [v, Json.Canonical, Json.CanonicalItems, sizeJson_eq]
  obtain ⟨accepts, fields⟩ := accepts_grammatical canonical
  have read : schema.ofJson v = .ok p := rfl
  exact ⟨canonical, read, accepts.1 ⟨p, read⟩, (fields p read).1⟩

end AccelControl.ScanParams
