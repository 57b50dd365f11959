import AccelControl.Proofs.Json.Framing
import AccelControl.Rpc.Responder

/-! Requests, read back by the target. -/

set_option autoImplicit false

namespace AccelControl

theorem Json.nat?_ofUInt64 (n : UInt64) : (Json.ofUInt64 n).nat? = some n.toNat := by
  simp [Json.ofUInt64, Json.nat?, Json.Integer.ofUInt64]

theorem Json.normalize_ofUInt64 (n : UInt64) : (Json.ofUInt64 n).normalize = .ofUInt64 n := rfl

theorem ParamMap.normalize_toJson (p : ParamMap) : p.toJson.normalize = p.toJson :=
  Json.normalize_of_canonical _ p.canonical

theorem ParamMap.ofMembers_members (p : ParamMap) : ParamMap.ofMembers p.members = p :=
  ParamMap.ext (Json.normalizeMembers_of_canonical p.members p.canonical.1 p.canonical.2)

namespace Request

theorem bytes_eq (r : Request) : r.bytes = r.toJson.bytes := by
  simp only [bytes, text, Json.render, Utf8.ofString, String.toList_ofList, Json.bytes]

theorem distinct_entries (r : Request) : (r.entries.map (·.1)).Nodup := by
  unfold entries
  split
  · simp
  · simp

theorem floatFree_toJson {r : Request} (plain : r.params.toJson.FloatFree) : r.toJson.FloatFree := by
  apply Json.floatFreeMembers_iff.2
  intro member mem
  unfold entries at mem
  rcases List.mem_append.1 mem with mem | mem
  · simp only [List.mem_cons, List.not_mem_nil, or_false] at mem
    rcases mem with rfl | rfl | rfl
    · trivial
    · trivial
    · trivial
  · split at mem
    · exact nomatch mem
    · rw [List.mem_singleton.1 mem]
      exact plain

theorem get?_entry (r : Request) {name : String} {v : Json} (mem : (name, v) ∈ r.entries) :
    Members.get? name (Json.normalizeMembers r.entries) = some v.normalize :=
  Json.get?_normalizeMembers_of_mem r.distinct_entries mem

theorem get?_params (r : Request) : Members.get? "params" (Json.normalizeMembers r.entries)
    = if r.params.isEmpty then none else some r.params.toJson := by
  split
  · next empty =>
    apply Json.get?_normalizeMembers_of_absent
    simp [entries, empty]
  · next present =>
    have entry : ("params", r.params.toJson) ∈ r.entries := by simp [entries, present]
    rw [r.get?_entry entry, r.params.normalize_toJson]

/-- A target reads of a request what was asked. -/
theorem ofJson?_toJson (r : Request) : ofJson? r.toJson.normalize = some r := by
  have entries : ("jsonrpc", .string "2.0") ∈ r.entries ∧ ("method", .string r.method) ∈ r.entries ∧
      ("id", .ofUInt64 r.id) ∈ r.entries := by simp [Request.entries]
  have version := r.get?_entry entries.1
  have method := r.get?_entry entries.2.1
  have id := r.get?_entry entries.2.2
  have params := r.get?_params
  have object : r.toJson.normalize = .object (Json.normalizeMembers r.entries) := by
    rw [toJson, Json.normalize]
  rw [object, ofJson?]
  simp only [version, method, id, params, Json.normalize, Json.normalize_ofUInt64, Option.bind_some,
    Json.nat?_ofUInt64, UInt64.ofNat_toNat]
  by_cases empty : r.params.isEmpty = true
  · have none : r.params = .empty := ParamMap.ext (List.isEmpty_iff.1 empty)
    simp [empty, ← none]
  · simp [empty, ParamMap.toJson, ParamMap.ofMembers_members]

/-- The bytes of a request are taken off a buffer as its value. -/
theorem framed_bytes {r : Request} (plain : r.params.toJson.FloatFree)
    (shallow : r.toJson.depth ≤ Json.greatestDepth) : Json.Framed r.bytes r.toJson.normalize := by
  rw [bytes_eq]
  exact Json.framed_bytes (floatFree_toJson plain) trivial shallow

/-- The members of the object that a request is read as, in ascending order. -/
def members (r : Request) : Members Json :=
  [("id", .ofUInt64 r.id), ("jsonrpc", .string "2.0"), ("method", .string r.method)]
    ++ if r.params.isEmpty then [] else [("params", r.params.toJson)]

theorem normalize_toJson (r : Request) : r.toJson.normalize = .object r.members := by
  unfold toJson entries members
  split
  · rfl
  · simp only [Json.normalize, r.params.normalize_toJson, Json.normalizeMembers, List.cons_append, List.nil_append]
    rfl

theorem depth_toJson_le (r : Request) : r.toJson.depth ≤ r.params.toJson.depth + 1 := by
  unfold toJson entries
  split
  · exact Nat.le_add_left 1 _
  · simp [Json.depth, Json.membersDepth, Json.ofUInt64]

/-- The text of a request is that of an object with the version, the method, the id and, if there are
any, the parameters. -/
theorem bytes_spelled (r : Request) : r.bytes = (Json.object ([("jsonrpc", .string "2.0"),
    ("method", .string r.method), ("id", .ofUInt64 r.id)]
      ++ if r.params.members = [] then [] else [("params", .object r.params.members)])).bytes := by
  rw [bytes_eq, toJson, entries, ParamMap.isEmpty]
  simp only [List.isEmpty_iff, ParamMap.toJson]

theorem framed_members (r : Request) (plain : r.params.toJson.FloatFree)
    (shallow : r.params.toJson.depth < Json.greatestDepth) :
    Json.Framed r.bytes (.object r.members) := by
  rw [← normalize_toJson]
  exact framed_bytes plain (Nat.le_trans r.depth_toJson_le shallow)

end Request

end AccelControl
