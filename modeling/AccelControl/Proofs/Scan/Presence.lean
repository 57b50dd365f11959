import AccelControl.Proofs.Scan.Request

/-! Which inputs a request shows.

An input that is given is in the request under its name and with its value, whatever the value is.
Only the deprecated flag gives way, to the canonical one, with which it shares the name. There is
nothing else in the request.
-/

set_option autoImplicit false

namespace AccelControl.ScanParams

namespace Setting

/-- The name under which a request has an input: its own, but for the deprecated flag. -/
def wireName : Setting → String
  | .qpSize _ => "qp_size"
  | .cqSize _ => "cq_size"
  | .numRequests _ => "num_requests"
  | .cryptoSplitBlocks _ => "crypto_split_blocks"
  | .allowedDevs _ => "allowed_devs"
  | .qpPerDomain _ => "qp_per_domain"
  | .merge _ | .enableDriver _ => "enable_driver"
  | .enableModule _ => "enable_module"
  | .disableSignature _ => "disable_signature"
  | .disableCrypto _ => "disable_crypto"

/-- What a request says of an input: a size is an integer, names are one text. -/
def value : Setting → Json
  | .qpSize n | .cqSize n | .numRequests n | .cryptoSplitBlocks n =>
    .number (.integer ⟨n.toNat, by omega, by have := n.toNat_lt; omega⟩)
  | .allowedDevs names => .string (String.intercalate "," names)
  | .merge b | .qpPerDomain b | .enableDriver b | .enableModule b | .disableSignature b
  | .disableCrypto b => .bool b

theorem value_ne_null (setting : Setting) : setting.value ≠ .null := by
  cases setting <;> nofun

end Setting

def wireNames : List String := [
  "qp_size", "cq_size", "num_requests", "crypto_split_blocks", "allowed_devs", "qp_per_domain",
  "enable_driver", "enable_module", "disable_signature", "disable_crypto"]

theorem Setting.wireName_mem (setting : Setting) : setting.wireName ∈ wireNames := by
  cases setting <;> simp [wireName, wireNames]

def Asks (p : ScanParams) : Setting → Prop
  | .qpSize n => p.qpSize = some n
  | .cqSize n => p.cqSize = some n
  | .numRequests n => p.numRequests = some n
  | .cryptoSplitBlocks n => p.cryptoSplitBlocks = some n
  | .allowedDevs names => p.allowedDevs = some names
  | .merge b => p.merge = some b
  | .qpPerDomain b => p.qpPerDomain = some b
  | .enableDriver b => p.enableDriver = some b
  | .enableModule b => p.enableModule = some b
  | .disableSignature b => p.disableSignature = some b
  | .disableCrypto b => p.disableCrypto = some b

/-- An input is given, and it is not the deprecated flag beside the canonical one. -/
def Shows (p : ScanParams) : Setting → Prop
  | .merge b => p.enableDriver = none ∧ p.Asks (.merge b)
  | setting => p.Asks setting

variable (p : ScanParams)

variable {p} in
theorem Shows.asks {setting : Setting} (shown : p.Shows setting) : p.Asks setting := by
  cases setting with
  | merge b => exact shown.2
  | _ => exact shown

theorem wire_names : p.wire.map (·.1) = wireNames := rfl

theorem shows_of_mem_wire {name : String} {value : Json} (mem : (name, some value) ∈ p.wire) :
    ∃ setting, p.Shows setting ∧ setting.wireName = name ∧ setting.value = value := by
  -- Every name stands for one input, but for that of the driver, which stands for two.
  simp only [wire, List.mem_cons, Prod.mk.injEq, List.not_mem_nil, or_false,
    eq_comm (a := some value), Option.map_eq_some_iff] at mem
  rcases mem with ⟨rfl, n, given, rfl⟩ | ⟨rfl, n, given, rfl⟩ | ⟨rfl, n, given, rfl⟩
    | ⟨rfl, n, given, rfl⟩ | ⟨rfl, -, ⟨names, given, rfl⟩, rfl⟩ | ⟨rfl, b, given, rfl⟩
    | ⟨rfl, b, given, rfl⟩ | ⟨rfl, b, given, rfl⟩ | ⟨rfl, b, given, rfl⟩ | ⟨rfl, b, given, rfl⟩
  · exact ⟨.qpSize n, given, rfl, rfl⟩
  · exact ⟨.cqSize n, given, rfl, rfl⟩
  · exact ⟨.numRequests n, given, rfl, rfl⟩
  · exact ⟨.cryptoSplitBlocks n, given, rfl, rfl⟩
  · exact ⟨.allowedDevs names, given, rfl, rfl⟩
  · exact ⟨.qpPerDomain b, given, rfl, rfl⟩
  · rcases Option.or_eq_some_iff.1 given with given | ⟨missing, given⟩
    · exact ⟨.enableDriver b, given, rfl, rfl⟩
    · exact ⟨.merge b, ⟨missing, given⟩, rfl, rfl⟩
  · exact ⟨.enableModule b, given, rfl, rfl⟩
  · exact ⟨.disableSignature b, given, rfl, rfl⟩
  · exact ⟨.disableCrypto b, given, rfl, rfl⟩

theorem mem_wire_of_shows {setting : Setting} (shown : p.Shows setting) :
    (setting.wireName, some setting.value) ∈ p.wire := by
  cases setting with
  | merge b =>
    obtain ⟨missing, asks⟩ := shown
    have sent : p.driver = some b := by rw [driver, missing, Option.none_or, asks]
    simp [wire, sent, Setting.wireName, Setting.value]
  | enableDriver b =>
    have sent : p.driver = some b := by rw [driver, shown.asks, Option.some_or]
    simp [wire, sent, Setting.wireName, Setting.value]
  | _ =>
    simp only [Shows, Asks] at shown
    simp [wire, shown, Setting.wireName, Setting.value, sizeJson_eq, joined]

/-- A request has exactly the values of the inputs that it shows. -/
theorem get?_build_eq_some_iff (name : String) (value : Json) :
    p.build.params.get? name = some value
      ↔ ∃ setting, p.Shows setting ∧ setting.wireName = name ∧ setting.value = value := by
  rw [get?_build, Option.join_eq_some_iff]
  constructor
  · exact fun found => p.shows_of_mem_wire (Members.mem_of_get? found)
  · rintro ⟨setting, shown, rfl, rfl⟩
    have distinct : (p.wire.map (·.1)).Nodup := by
      rw [wire_names]
      decide
    exact Members.get?_of_mem distinct (p.mem_wire_of_shows shown)

variable {p} in
/-- Under the name of an input that is given a request shows an input, this one or one that comes
before it. -/
theorem exists_shows_of_asks {setting : Setting} (asks : p.Asks setting) :
    ∃ foremost, p.Shows foremost ∧ foremost.wireName = setting.wireName := by
  by_cases shown : p.Shows setting
  · exact ⟨setting, shown, rfl⟩
  · cases setting with
    | merge b =>
      obtain ⟨own, given⟩ := Option.ne_none_iff_exists'.1 fun missing => shown ⟨missing, asks⟩
      exact ⟨.enableDriver own, given, rfl⟩
    | _ => exact absurd asks shown

theorem contains_build_iff (name : String) :
    p.build.params.contains name = true
      ↔ name ∈ wireNames ∧ ∃ setting, p.Asks setting ∧ setting.wireName = name := by
  rw [ParamMap.contains, Option.isSome_iff_exists]
  simp only [get?_build_eq_some_iff]
  constructor
  · rintro ⟨_, setting, shown, rfl, rfl⟩
    exact ⟨setting.wireName_mem, setting, shown.asks, rfl⟩
  · rintro ⟨-, setting, asks, rfl⟩
    obtain ⟨foremost, shown, same⟩ := exists_shows_of_asks asks
    exact ⟨_, foremost, shown, same, rfl⟩

/-- A request has a name exactly if it is one of the ten and its input is given. The value is then
that of the input, and of the flags for the driver that of the canonical one if both are given. No
value is null, the deprecated name does not occur, and there is one notice, of its use, exactly if
the deprecated flag is given, be it sent or not. -/
theorem build_presence :
    (∀ name, p.build.params.contains name = true
        ↔ name ∈ wireNames ∧ ∃ setting, p.Asks setting ∧ setting.wireName = name) ∧
      (∀ name value, p.build.params.get? name = some value
        ↔ ∃ setting, p.Shows setting ∧ setting.wireName = name ∧ setting.value = value) ∧
      (∀ name, p.build.params.get? name ≠ some .null) ∧
      p.build.params.contains "merge" = false ∧
      p.build.notices = if p.merge.isSome then [⟨.merge, true⟩] else [] := by
  refine ⟨p.contains_build_iff, p.get?_build_eq_some_iff, ?_, ?_, rfl⟩
  · intro name isNull
    obtain ⟨setting, -, -, isNull⟩ := (p.get?_build_eq_some_iff name .null).1 isNull
    exact setting.value_ne_null isNull
  · rw [← Bool.not_eq_true, p.contains_build_iff]
    exact fun present => absurd present.1 (by decide)

-- What means "no" or "nothing" is not left out.
example : (empty.setAll [.qpSize 0, .allowedDevs [], .merge false]).build.params.members
    = [("allowed_devs", .string ""), ("enable_driver", .bool false), ("qp_size", .ofUInt64 0)] :=
  rfl

end AccelControl.ScanParams
