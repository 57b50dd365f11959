import AccelControl.Rpc.Response

/-! Which values are read as data without parts. -/

set_option autoImplicit false

namespace AccelControl

section Except

variable {ε α β : Type} {first : Except ε α}

theorem map_ok_iff {f : α → β} {b : β} : first.map f = .ok b ↔ ∃ a, first = .ok a ∧ f a = b := by
  cases first <;> simp [Except.map]

theorem bind_ok_iff {second : α → Except ε β} {b : β} :
    first >>= second = .ok b ↔ ∃ a, first = .ok a ∧ second a = .ok b := by
  cases first <;> simp [bind, Except.bind]

end Except

namespace Schema

theorem map_ofJson_iff {α β : Type} {schema : Schema α} {f : α → β} {v : Json} {b : β} :
    (schema.map f).ofJson v = .ok b ↔ ∃ a, schema.ofJson v = .ok a ∧ f a = b :=
  map_ok_iff

/-- A missing member is read as the default, and any other one as what it is. -/
theorem orElse_iff {α : Type} {schema : Schema α} {default a : α} {member : Option Json} :
    schema.orElse default member = .ok a
      ↔ member = none ∧ a = default ∨ ∃ v, member = some v ∧ schema.ofJson v = .ok a := by
  cases member <;> simp [orElse, eq_comm]

theorem string_ofJson_iff {v : Json} {s : String} : string.ofJson v = .ok s ↔ v = .string s := by
  cases v <;> simp [string, scalar, Json.token]

theorem integer_ofJson_iff {lowest highest n : Int} {expected : String} {v : Json} :
    (integer lowest highest expected).ofJson v = .ok n
      ↔ ∃ i, v = .number (.integer i) ∧ i.value = n ∧ lowest ≤ n ∧ n ≤ highest := by
  cases v with
  | number number =>
    cases number with
    | integer i =>
      have read : (integer lowest highest expected).ofJson (.number (.integer i))
          = if lowest ≤ i.value ∧ i.value ≤ highest then .ok i.value
            else .error (.value (.integer i.value) expected) := rfl
      rw [read]
      split
      · next fits =>
        constructor
        · rintro ⟨⟩
          exact ⟨i, rfl, rfl, fits⟩
        · rintro ⟨j, ⟨⟩, rfl, -⟩
          rfl
      · next beyond =>
        constructor
        · exact nofun
        · rintro ⟨j, ⟨⟩, rfl, fits⟩
          exact absurd fits beyond
    | float x => simp [integer, scalar, Json.token]
  | _ => simp [integer, scalar, Json.token]

theorem int64_ofJson_iff {v : Json} {n : Int64} :
    int64.ofJson v = .ok n ↔ ∃ i, v = .number (.integer i) ∧ i.value = n.toInt := by
  unfold int64
  rw [map_ofJson_iff]
  constructor
  · rintro ⟨m, read, rfl⟩
    obtain ⟨i, number, rfl, lower, upper⟩ := integer_ofJson_iff.1 read
    exact ⟨i, number, (Int64.toInt_ofInt_of_le lower (by omega)).symm⟩
  · rintro ⟨i, number, same⟩
    have lower := n.le_toInt
    have upper := n.toInt_lt
    exact ⟨n.toInt, integer_ofJson_iff.2 ⟨i, number, same, lower, by omega⟩, n.ofInt_toInt⟩

end Schema

end AccelControl
