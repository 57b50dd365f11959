import AccelControl.Config.Document
import AccelControl.Proofs.Config.Saving
import AccelControl.Proofs.Toml.Document

/-! The configuration of a client, written in TOML and in JSON.

Either way the fields that are written are set one after another, beginning with the configuration
of which nothing is written, so both come to the same. The order of the fields and the spelling of
their values do not matter. A field that is not written has the value that it has by default, since
what stands for a missing field is the default of the field.
-/

set_option autoImplicit false

namespace AccelControl

theorem Duration.ofField_of_written {text : String} {span : Duration}
    (written : ofUnits? text = some span) : ofField text = .ok span := by
  rw [ofField, written]

namespace ClientConfig

inductive Setting where
  | serverAddr (address : String)
  | port (number : UInt16)
  /-- A timeout, in whichever way its units are written. -/
  | timeout (text : String) (span : Duration) (written : Duration.ofUnits? text = some span)
  /-- A number of retries; the integers of TOML have 64 bits with a sign. -/
  | connRetries (count : UInt64) (signed : count.toNat < 0x8000000000000000)

namespace Setting

def name : Setting → String
  | .serverAddr _ => "server_addr"
  | .port _ => "port"
  | .timeout _ _ _ => "timeout"
  | .connRetries _ _ => "conn_retries"

def entry (setting : Setting) : String × Toml.Value where
  fst := setting.name
  snd := match setting with
    | .serverAddr address => .string address
    | .port number => .integer number.toNat
    | .timeout text _ _ => .string text
    | .connRetries count _ => .integer count.toNat

def member (setting : Setting) : String × Json where
  fst := setting.name
  snd := match setting with
    | .serverAddr address => .string address
    | .port number => .ofUInt64 number.toUInt64
    | .timeout text _ _ => .string text
    | .connRetries count _ => .ofUInt64 count

end Setting

def Has (c : ClientConfig) : Setting → Prop
  | .serverAddr address => c.serverAddr = address
  | .port number => c.port = number
  | .timeout _ span _ => c.timeout = span
  | .connRetries count _ => c.connRetries = count

def set (c : ClientConfig) : Setting → ClientConfig
  | .serverAddr address => { c with serverAddr := address }
  | .port number => { c with port := number }
  | .timeout _ span _ => { c with timeout := span }
  | .connRetries count _ => { c with connRetries := count }

variable {c : ClientConfig} {setting other : Setting} {settings : List Setting}

theorem unwritten_eq_default : unwritten = default := rfl

section set

theorem has_set (c : ClientConfig) (setting : Setting) : (c.set setting).Has setting := by
  cases setting <;> rfl

theorem has_set_of_ne (different : other.name ≠ setting.name) :
    (c.set other).Has setting ↔ c.Has setting := by
  cases setting <;> cases other <;> simp_all [Has, set, Setting.name]

theorem get_set_of_ne {slot : Slot ClientConfig} (mem : slot ∈ slots)
    (different : setting.name ≠ slot.name) : slot.get (c.set setting) = slot.get c := by
  simp only [slots, List.mem_cons, List.not_mem_nil, or_false] at mem
  rcases mem with rfl | rfl | rfl | rfl <;> cases setting <;> simp_all [set, Setting.name]

theorem has_foldl_set (fresh : setting.name ∉ settings.map Setting.name) :
    (settings.foldl set c).Has setting ↔ c.Has setting := by
  induction settings generalizing c with
  | nil => rfl
  | cons other settings ih =>
    rw [List.map_cons, List.mem_cons, not_or] at fresh
    rw [List.foldl_cons, ih fresh.2, has_set_of_ne (Ne.symm fresh.1)]

theorem has_of_mem (distinct : (settings.map Setting.name).Nodup) (mem : setting ∈ settings) :
    (settings.foldl set c).Has setting := by
  induction settings generalizing c with
  | nil => exact nomatch mem
  | cons first settings ih =>
    obtain ⟨fresh, distinct⟩ := List.nodup_cons.1 distinct
    rcases List.mem_cons.1 mem with rfl | mem
    · exact (has_foldl_set fresh).2 (has_set c _)
    · exact ih distinct mem

theorem get_foldl_set {slot : Slot ClientConfig} (inside : slot ∈ slots)
    (missing : slot.name ∉ settings.map Setting.name) :
    slot.get (settings.foldl set c) = slot.get c := by
  induction settings generalizing c with
  | nil => rfl
  | cons first settings ih =>
    rw [List.map_cons, List.mem_cons, not_or] at missing
    rw [List.foldl_cons, ih missing.2, get_set_of_ne inside (Ne.symm missing.1)]

end set

section toml

theorem naturalEntry_integer {n highest : Nat} (fits : n ≤ highest) (expected : String) :
    naturalEntry highest (.value (.integer n)) expected = .ok n := by
  rw [naturalEntry, if_pos ⟨Int.natCast_nonneg n, Int.ofNat_le.2 fits⟩, Int.toNat_natCast]

theorem takeEntry_setting (c : ClientConfig) (setting : Setting) :
    c.takeEntry setting.entry.1 (.value setting.entry.2) = .ok (c.set setting) := by
  cases setting with
  | serverAddr address => rfl
  | port number =>
    have read := naturalEntry_integer (Nat.le_of_lt_succ number.toNat_lt) "u16"
    simp [takeEntry, Setting.entry, Setting.name, set, read, Except.map]
  | timeout text span written =>
    have read := Duration.ofField_of_written written
    simp [takeEntry, Setting.entry, Setting.name, set, read, textEntry, Except.bind, Except.map]
  | connRetries count signed =>
    have read := naturalEntry_integer (Nat.le_of_lt_succ count.toNat_lt) "usize"
    simp [takeEntry, Setting.entry, Setting.name, set, read, Except.map]

theorem bare_entry (setting : Setting) : Toml.Bare setting.entry.1 := by
  cases setting with
  | serverAddr address => exact (by decide : Toml.Bare "server_addr")
  | port number => exact (by decide : Toml.Bare "port")
  | timeout text span written => exact (by decide : Toml.Bare "timeout")
  | connRetries count signed => exact (by decide : Toml.Bare "conn_retries")

theorem exists_writes (setting : Setting) : ∃ text, Toml.Writes setting.entry.2 text := by
  cases setting with
  | serverAddr address => exact ⟨_, .string (Toml.quotes_quoted address)⟩
  | port number => exact ⟨_, .natural (Nat.lt_trans number.toNat_lt (by decide))⟩
  | timeout text span written => exact ⟨_, .string (Toml.quotes_quoted text)⟩
  | connRetries count signed => exact ⟨_, .natural signed⟩

theorem ofToml_lines (distinct : (settings.map Setting.name).Nodup) {text : String}
    (lines : Toml.Lines (settings.map Setting.entry) text.toList) :
    ofToml text = .ok (settings.foldl set unwritten) := by
  have names : (settings.map Setting.entry).map (·.1) = settings.map Setting.name := List.map_map
  have read := Toml.parse_lines lines (List.forall_mem_map.2 fun setting _ => bare_entry setting)
    (names ▸ distinct)
  have taken : ((settings.map Setting.entry).map fun entry => (entry.1, Toml.Entry.value entry.2)).foldlM
      (fun c entry => c.takeEntry entry.1 entry.2) unwritten = .ok (settings.foldl set unwritten) := by
    simp only [List.foldlM_map, takeEntry_setting]
    exact List.foldlM_pure
  rw [ofToml, read]
  simp only [taken]

end toml

section json

theorem takeMember_field {α : Type} {name : String} {schema : Schema α}
    {set : α → ClientConfig → ClientConfig} {v : Json} {a : α}
    (field : record.field? name = some (.of name schema set)) (c : ClientConfig)
    (read : schema.ofJson v = .ok a) : record.takeMember c name v = .ok (set a c) := by
  simp only [Record.takeMember, field, Field.of, Schema.map, read]
  rfl

theorem takeMember_setting (c : ClientConfig) (setting : Setting) :
    record.takeMember c setting.member.1 setting.member.2 = .ok (c.set setting) := by
  cases setting with
  | serverAddr address =>
    have field : record.field? "server_addr"
        = some (.of "server_addr" .string fun serverAddr c => { c with serverAddr }) := rfl
    exact takeMember_field field c rfl
  | port number =>
    have field : record.field? "port" = some (.of "port" .word16 fun port c => { c with port }) := rfl
    exact takeMember_field field c ((reads_port _ number).2 rfl)
  | timeout text span written =>
    have field : record.field? "timeout"
        = some (.of "timeout" Duration.schema fun timeout c => { c with timeout }) := rfl
    exact takeMember_field field c (Duration.ofField_of_written written)
  | connRetries count signed =>
    have field : record.field? "conn_retries"
        = some (.of "conn_retries" .count fun connRetries c => { c with connRetries }) := rfl
    exact takeMember_field field c ((reads_retries _ count).2 rfl)

theorem takeEntries_members :
    record.takeEntries (settings.map Setting.member) unwritten = .ok (settings.foldl set unwritten) := by
  rw [Record.takeEntries]
  simp only [List.foldlM_map, takeMember_setting]
  exact List.foldlM_pure

theorem known_members : ∀ member ∈ settings.map Setting.member, member.1 ∈ record.fieldNames := by
  rw [List.forall_mem_map]
  intro setting _
  cases setting <;> simp [Setting.member, Setting.name, record, Record.fieldNames, Field.of]

theorem storable_members : ∀ member ∈ settings.map Setting.member, member.2.Storable := by
  rw [List.forall_mem_map]
  intro setting _
  cases setting <;> exact ⟨trivial, trivial, Nat.zero_lt_succ _⟩

end json

/-- Fields that are written in TOML, on a line each, and in JSON come to the same configuration, in any
order and however their values are spelled: what is written has its value, and the rest its default. -/
theorem formats_agree {settings : List Setting} (distinct : (settings.map Setting.name).Nodup) :
    ∃ c : ClientConfig,
      (∀ setting ∈ settings, c.Has setting)
      ∧ (∀ slot ∈ slots, slot.name ∉ settings.map Setting.name →
          slot.get c = slot.get unwritten ∧ slot.get c = slot.get default)
      ∧ (∃ text : String, Toml.Lines (settings.map Setting.entry) text.toList)
      ∧ (∀ text : String, Toml.Lines (settings.map Setting.entry) text.toList → ofToml text = .ok c)
      ∧ (∃ s, Json.writtenMembers? s = some (settings.map Setting.member))
      ∧ (∀ s, Json.writtenMembers? s = some (settings.map Setting.member) →
          schema.parse s = .ok c ∧ schema.parseValue s = .ok c)
      ∧ schema.ofJson (.object (Members.ofEntries (settings.map Setting.member))) = .ok c := by
  have names : (settings.map Setting.member).map (·.1) = settings.map Setting.name := List.map_map
  have distinct' := names ▸ distinct
  refine ⟨settings.foldl set unwritten, fun _ mem => has_of_mem distinct mem,
    fun slot inside missing => ?_, ?_,
    fun text lines => ofToml_lines distinct lines, ?_, fun s written => ?_, ?_⟩
  · have left := get_foldl_set (c := unwritten) inside missing
    exact ⟨left, unwritten_eq_default ▸ left⟩
  · exact Toml.exists_lines (List.forall_mem_map.2 fun setting _ => exists_writes setting)
  · exact ⟨_, Json.writtenMembers?_storable storable_members⟩
  · exact record_laidOut.reads_written slots_faithful (by decide) written distinct' known_members
      takeEntries_members
  · exact (record_laidOut.ofJson_ofEntries_iff distinct').2 takeEntries_members

theorem formats_agree_escaped :
    let settings : List Setting := [.connRetries 12 (by decide),
      .timeout "1h" ⟨3600, 0, by decide, by decide⟩ rfl, .serverAddr "/"]
    let text := "conn_retries = 12\ntimeout = \"1\\u0068\"\nserver_addr = \"\\U0000002F\""
    let s := (Json.object (settings.map Setting.member)).bytes
    let c : ClientConfig := ⟨"/", 5260, ⟨3600, 0, by decide, by decide⟩, 12⟩
    (settings.map Setting.name).Nodup ∧ Toml.Lines (settings.map Setting.entry) text.toList
      ∧ ofToml text = .ok c ∧ schema.parse s = .ok c ∧ schema.parseValue s = .ok c := by
  intro settings text s c
  have distinct : (settings.map Setting.name).Nodup := by decide
  have slash : Toml.Codes "0000002F".toList 0x2F := ⟨[0, 0, 0, 0, 0, 0, 2, 15], by decide, rfl⟩
  have h : Toml.Codes "0068".toList 0x68 := ⟨[0, 0, 6, 8], by decide, rfl⟩
  have path : Toml.Quotes "\"\\U0000002F\"".toList "/" :=
    ⟨["\\U0000002F".toList], .cons (.code (by decide) slash) .nil, rfl⟩
  have hour : Toml.Quotes "\"1\\u0068\"".toList "1h" :=
    ⟨[['1'], "\\u0068".toList],
      .cons (.plain rfl (by decide) (by decide)) (.cons (.code (by decide) h) .nil), rfl⟩
  have twelve : Toml.Writes (.integer (12 : Nat)) "12".toList := .natural (n := 12) (by decide)
  have layout : text.toList = Toml.line "conn_retries" "12".toList
      ++ '\n' :: (Toml.line "timeout" "\"1\\u0068\"".toList
        ++ '\n' :: Toml.line "server_addr" "\"\\U0000002F\"".toList) := by decide
  have lines : Toml.Lines (settings.map Setting.entry) text.toList :=
    layout ▸ .cons twelve (.cons (.string hour) (.last (.string path)))
  obtain ⟨found, given, others, -, toml, -, json, -⟩ := formats_agree distinct
  have port : found.port = default.port := (others slots[1] (by simp [slots]) (by decide)).2
  have same : found = c := by
    simp only [settings, List.forall_mem_cons] at given
    obtain ⟨retries, timeout, address, -⟩ := given
    cases found
    simp_all [Has, c, default, Defaults.port]
  have read := json s (Json.writtenMembers?_storable storable_members)
  rw [same] at toml read
  exact ⟨distinct, lines, toml text lines, read⟩

end ClientConfig

end AccelControl
