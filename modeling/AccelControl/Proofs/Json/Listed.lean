import AccelControl.Proofs.Json.Foresight.Value
import Mathlib.Data.List.Forall2

/-! The items between two brackets, as a relation between a text and what it lists.

The readers of items and of members are told here without their bounds and without what they have read
before. Members are the items of an object: each is a name and what is written behind its colon.
-/

set_option autoImplicit false

namespace AccelControl.Json

variable {α β σ ε : Type}

inductive Listed (close : UInt8) (item : Reader α) : Bool → Bytes → List α → Bytes → Prop
  | closed {first : Bool} {s rest : Bytes} (step : next close first s = .ok (.closed rest)) :
      Listed close item first s [] rest
  | item {first : Bool} {s t u rest : Bytes} {a : α} {later : List α}
      (step : next close first s = .ok (.item t)) (read : item t = .ok (a, u))
      (others : Listed close item false u later rest) : Listed close item first s (a :: later) rest

def behindColon (part : Reader α) : Reader α := fun s =>
  andThen ((readColon s).map fun s => ((), s)) fun _ => part

def readEntry (part : Reader α) : Reader (String × α) := fun s =>
  andThen (readName s) fun name s => (behindColon part s).map fun (a, s) => ((name, a), s)

abbrev ListedMembers (part : Reader α) : Bool → Bytes → List (String × α) → Bytes → Prop :=
  Listed 0x7D (readEntry part)

theorem length_le_of_item {close : UInt8} {first : Bool} {s t : Bytes}
    (step : next close first s = .ok (.item t)) : t.length ≤ s.length :=
  (next_suffix step).1.length_le

theorem length_lt_of_readToken {s t : Bytes} {token : Token} (read : readToken s = .ok (token, t)) :
    t.length < s.length :=
  (consumes_readTokenWith consumes_readNumber s token t read).2

theorem consumes_behindColon {part : Reader α} (consumes : Consumes part) :
    Consumes (behindColon part) :=
  consumes_andThen consumes_readColon fun _ => consumes

theorem readEntry_ok {part : Reader α} {s rest : Bytes} {name : String} {a : α} :
    readEntry part s = .ok ((name, a), rest)
      ↔ ∃ t, readName s = .ok (name, t) ∧ behindColon part t = .ok (a, rest) := by
  unfold readEntry
  cases named : readName s with
  | error fault => simp [andThen]
  | ok r =>
    obtain ⟨key, t⟩ := r
    cases read : behindColon part t with
    | error fault => simp [andThen, read, Except.map]
    | ok r => simp [andThen, read, Except.map, Prod.ext_iff, and_assoc]

theorem readMember_eq_behindColon (part : Reader Json) (members : Members Json) (name : String)
    (s : Bytes) : readMember part members name s
      = (behindColon part s).map fun (value, s) => (members.insert name value, s) := by
  rw [readMember_eq, behindColon]
  cases readColon s <;> rfl

namespace Listed

variable {close : UInt8} {item : Reader α} {first : Bool} {s rest : Bytes} {listed : List α}

/-- Items that are read from other items are listed where those are. -/
theorem decoded_iff {value : Reader β} {decode : β → Except ε α} {limit : Nat}
    (consumes : Consumes value)
    (items : ∀ {s a rest}, s.length < limit →
      (item s = .ok (a, rest) ↔ ∃ v, value s = .ok (v, rest) ∧ decode v = .ok a))
    (fits : s.length < limit) :
    Listed close item first s listed rest
      ↔ ∃ values, Listed close value first s values rest
        ∧ List.Forall₂ (fun v a => decode v = .ok a) values listed := by
  constructor
  · intro lists
    induction lists with
    | closed step => exact ⟨[], .closed step, .nil⟩
    | item step read others ih =>
      have within := length_le_of_item step
      obtain ⟨v, read, decoded⟩ := (items (by omega)).1 read
      have shorter := (consumes _ _ _ read).2
      obtain ⟨values, lists, decodes⟩ := ih (by omega)
      exact ⟨v :: values, .item step read lists, .cons decoded decodes⟩
  · rintro ⟨values, lists, decodes⟩
    induction lists generalizing listed with
    | closed step => cases decodes; exact .closed step
    | item step read others ih =>
      cases decodes with
      | cons decoded decodes =>
        have within := length_le_of_item step
        have shorter := (consumes _ _ _ read).2
        exact .item step ((items (by omega)).2 ⟨_, read, decoded⟩) (ih (by omega) decodes)

end Listed

theorem readItems_iff {item : Reader α} (consumes : Consumes item) {bound : Nat} {first : Bool}
    {before listed : List α} {s rest : Bytes} (fits : s.length < bound) :
    readItems item bound first before s = .ok (listed, rest)
      ↔ ∃ later, Listed 0x5D item first s later rest ∧ listed = before.reverse ++ later := by
  induction bound generalizing first before s with
  | zero => exact absurd fits (Nat.not_lt_zero _)
  | succ bound ih =>
    rw [readItems_succ]
    constructor
    · intro found
      obtain ⟨step, rfl⟩ | ⟨t, step, found⟩ := behindNext_ok_iff.1 found
      · exact ⟨[], .closed step, (List.append_nil _).symm⟩
      · obtain ⟨a, u, read, found⟩ := ok_of_andThen found
        have within := length_le_of_item step
        have shorter := (consumes t a u read).2
        obtain ⟨later, lists, rfl⟩ := (ih (by omega)).1 found
        exact ⟨a :: later, .item step read lists, by simp⟩
    · rintro ⟨later, lists, rfl⟩
      cases lists with
      | closed step => rw [behindNext_of_closed step, List.append_nil]
      | item step read others =>
        have within := length_le_of_item step
        have shorter := (consumes _ _ _ read).2
        simp only [behindNext_of_item step, read, andThen]
        exact (ih (by omega)).2 ⟨_, others, by simp⟩

section members

variable {member : σ → String → Reader σ} {part : Reader β} (step : σ → String × β → Except ε σ)
  {limit : Nat} {first : Bool} {state state' : σ} {s rest : Bytes}

/-- What a reader of members makes of a text, its members make of the state one after another. -/
theorem listed_of_readMembers (consumes : Consumes part)
    (takes : ∀ {state state' name s rest}, s.length < limit →
      member state name s = .ok (state', rest) →
      ∃ b, behindColon part s = .ok (b, rest) ∧ step state (name, b) = .ok state')
    {bound : Nat} (fits : s.length < limit)
    (found : readMembers readString member bound first state s = .ok (state', rest)) :
    ∃ entries, ListedMembers part first s entries rest ∧ entries.foldlM step state = .ok state' := by
  induction bound generalizing first state s with
  | zero => exact nomatch found
  | succ bound ih =>
    rw [readMembers_succ] at found
    obtain ⟨next', rfl⟩ | ⟨t, next', found⟩ := behindNext_ok_iff.1 found
    · exact ⟨[], .closed next', rfl⟩
    · obtain ⟨name, u, named, found⟩ := ok_of_andThen found
      obtain ⟨state₁, w, read, found⟩ := ok_of_andThen found
      have within := length_le_of_item next'
      have shorter := (consumes_readName t name u named).2
      obtain ⟨b, read, stepped⟩ := takes (by omega) read
      have shorter' := (consumes_behindColon consumes _ _ _ read).2
      obtain ⟨entries, lists, folds⟩ := ih (by omega) found
      refine ⟨(name, b) :: entries, .item next' (readEntry_ok.2 ⟨u, named, read⟩) lists, ?_⟩
      rw [List.foldlM_cons, stepped]
      exact folds

theorem readMembers_of_listed (known : String → Prop) (consumes : Consumes part)
    (takes : ∀ {state state' name b s rest}, known name → s.length < limit →
      behindColon part s = .ok (b, rest) → step state (name, b) = .ok state' →
      member state name s = .ok (state', rest))
    {bound : Nat} (fits : s.length < limit) (short : s.length < bound)
    {entries : List (String × β)} (names : ∀ entry ∈ entries, known entry.1)
    (lists : ListedMembers part first s entries rest)
    (folds : entries.foldlM step state = .ok state') :
    readMembers readString member bound first state s = .ok (state', rest) := by
  induction lists generalizing bound state with
  | closed next' =>
    cases bound with
    | zero => exact absurd short (Nat.not_lt_zero _)
    | succ bound =>
      cases folds
      rw [readMembers_succ, behindNext_of_closed next']
  | @item first s t u rest entry later next' read others ih =>
    cases bound with
    | zero => exact absurd short (Nat.not_lt_zero _)
    | succ bound =>
      obtain ⟨name, b⟩ := entry
      obtain ⟨w, named, read⟩ := readEntry_ok.1 read
      rw [List.foldlM_cons] at folds
      cases stepped : step state (name, b) with
      | error fault => rw [stepped] at folds; exact nomatch folds
      | ok state₁ =>
        rw [stepped] at folds
        obtain ⟨this, others'⟩ := List.forall_mem_cons.1 names
        have within := length_le_of_item next'
        have shorter := (consumes_readName _ _ _ named).2
        have shorter' := (consumes_behindColon consumes _ _ _ read).2
        rw [readMembers_succ, behindNext_of_item next', named]
        simp only [andThen, takes this (by omega) read stepped]
        exact ih (by omega) (by omega) others' folds

end members

/-- The members of an object, taken into a map one after another. -/
theorem readMembers_iff {part : Reader Json} (consumes : Consumes part) {bound : Nat} {first : Bool}
    {before members : Members Json} {s rest : Bytes} (fits : s.length < bound) :
    readMembers readString (readMember part) bound first before s = .ok (members, rest)
      ↔ ∃ entries, ListedMembers part first s entries rest
        ∧ members = entries.foldl (fun members entry => members.insert entry.1 entry.2) before := by
  let step : Members Json → String × Json → Except Fault (Members Json) := fun members entry =>
    pure (members.insert entry.1 entry.2)
  have folds : ∀ entries, List.foldlM step before entries = .ok members
      ↔ members = entries.foldl (fun members entry => members.insert entry.1 entry.2) before := by
    intro entries
    rw [List.foldlM_pure]
    exact ⟨fun same => (Except.ok.inj same).symm, fun same => congrArg _ same.symm⟩
  simp only [← folds]
  constructor
  · refine listed_of_readMembers step consumes (fun {members _ name _ _} _ found => ?_) fits
    rw [readMember_eq_behindColon] at found
    obtain ⟨value, read, rfl⟩ := ok_of_map (f := members.insert name) found
    exact ⟨value, read, rfl⟩
  · rintro ⟨entries, lists, folded⟩
    refine readMembers_of_listed step (fun _ => True) consumes (fun _ _ read stepped => ?_) fits fits
      (fun _ _ => trivial) lists folded
    cases stepped
    rw [readMember_eq_behindColon, read]
    rfl

end AccelControl.Json
