import AccelControl.Json.Shape
import AccelControl.Proofs.Json.Foresight.Value
import AccelControl.Proofs.Json.Normal
import AccelControl.Proofs.Json.RoundTrip.Number
import AccelControl.Proofs.Json.RoundTrip.Text

/-! Values without floating-point numbers, read back from their text.

The text is followed by anything that does not go on with a number. What is read is the canonical
value that the written one denotes.
-/

set_option autoImplicit false

namespace AccelControl.Json

/-- A byte that stands at the beginning of a value, and neither ends nor separates values. -/
def isStart (b : UInt8) : Bool := !isSpace b && b != 0x5D && b != 0x7D

theorem isStart_iff {b : UInt8} :
    isStart b = true ↔ isSpace b = false ∧ b ≠ 0x5D ∧ b ≠ 0x7D := by
  simp [isStart, and_assoc]

theorem signedDecimal_cons (i : Int) :
    ∃ b s, Utf8.encode (Text.signedDecimal i) = b :: s ∧ (b = 0x2D ∨ isDigit b = true) := by
  by_cases negative : i < 0
  · exact ⟨_, _, by rw [Text.signedDecimal, if_pos negative]; rfl, .inl rfl⟩
  · obtain ⟨b, s, front, digit, -⟩ := decimal_cons i.natAbs
    exact ⟨b, s, by rw [Text.signedDecimal, if_neg negative, front], .inr digit⟩

theorem isStart_of_isDigit {b : UInt8} (digit : isDigit b = true) : isStart b = true := by
  simp only [isDigit, Bool.and_eq_true, decide_eq_true_eq, UInt8.le_iff_toNat_le] at digit
  rw [isStart_iff]
  simp only [isSpace, Bool.or_eq_false_iff, beq_eq_false_iff_ne, ne_eq, ← UInt8.toNat_inj]
  simp at digit ⊢
  omega

theorem bytes_cons {v : Json} (plain : v.FloatFree) : ∃ b s, v.bytes = b :: s ∧ isStart b = true := by
  cases v with
  | null => exact ⟨_, _, rfl, by decide⟩
  | bool b => cases b <;> exact ⟨_, _, rfl, by decide⟩
  | number n =>
    cases n with
    | integer i =>
      obtain ⟨b, s, front, start⟩ := signedDecimal_cons i.value
      refine ⟨b, s, front, ?_⟩
      rcases start with rfl | digit
      · decide
      · exact isStart_of_isDigit digit
    | float x => exact absurd plain id
  | string s => exact ⟨_, _, rfl, by decide⟩
  | array items => exact ⟨_, _, rfl, by decide⟩
  | object members => exact ⟨_, _, rfl, by decide⟩

theorem next_first {close b : UInt8} {s : Bytes} (start : isSpace b = false) (other : b ≠ close) :
    next close true (b :: s) = .ok (.item (b :: s)) := by
  simp [next, skipSpace, start, other]

theorem next_comma {close b : UInt8} {s : Bytes} (start : isSpace b = false) (other : b ≠ close)
    (comma : close ≠ 0x2C) : next close false (0x2C :: b :: s) = .ok (.item (b :: s)) := by
  have space : isSpace 0x2C = false := by decide
  simp [next, skipSpace, start, space, other, comma.symm]

theorem next_close {close : UInt8} (first : Bool) {s : Bytes} (start : isSpace close = false) :
    next close first (close :: s) = .ok (.closed s) := by
  simp [next, skipSpace, start]

theorem readTokenWith_number (number : Reader Number) {b : UInt8} {s : Bytes}
    (start : b = 0x2D ∨ isDigit b = true) :
    readTokenWith number (b :: s) = (number (b :: s)).map fun (n, s) => (.number n, s) := by
  have range : b.toNat = 0x2D ∨ 0x30 ≤ b.toNat ∧ b.toNat ≤ 0x39 := by
    rcases start with rfl | digit
    · exact .inl rfl
    · exact .inr (by simpa [isDigit, UInt8.le_iff_toNat_le] using digit)
  have other : ∀ n : UInt8, (n.toNat < 0x2D ∨ 0x39 < n.toNat) → b ≠ n := by
    rintro n outside rfl
    omega
  have space : isSpace b = false := by
    simp only [isSpace, Bool.or_eq_false_iff, beq_eq_false_iff_ne]
    exact ⟨⟨⟨other 0x20 (by decide), other 0x0A (by decide)⟩, other 0x0D (by decide)⟩,
      other 0x09 (by decide)⟩
  simp only [readTokenWith, skipSpace, List.dropWhile, space, other 0x6E (by decide),
    other 0x74 (by decide), other 0x66 (by decide), other 0x22 (by decide), other 0x5B (by decide),
    other 0x7B (by decide), if_false, if_pos start]

theorem endsNumber_cons {b : UInt8} (rest : Bytes)
    (other : isDigit b = false ∧ b ≠ 0x2E ∧ b ≠ 0x65 ∧ b ≠ 0x45) : EndsNumber (b :: rest) := by
  intro c mem
  cases mem
  exact other

-- A value without parts is the value of its first token.
theorem readValueFrom_scalar {number : Reader Number} {token : Token} {v : Json} {s rest : Bytes}
    (read : readTokenWith number s = .ok (token, rest))
    (value : ∀ bound part s, readBehind bound part token s = .ok (v, s)) (bound depth : Nat) :
    readValueFrom number bound depth s = .ok (v, rest) := by
  cases depth with
  | zero =>
    rw [readValueFrom, readValueWith_eq, read]
    exact value bound none rest
  | succ depth =>
    rw [readValueFrom, readValueWith_eq, read]
    exact value bound (some (readValueFrom number bound depth)) rest

theorem encode_stringText (s : String) (rest : Bytes) :
    Utf8.encode (stringText s) ++ rest
      = 0x22 :: (Utf8.encode (s.toList.flatMap escapedChar) ++ 0x22 :: rest) := by
  rw [stringText, Utf8.encode_append, Utf8.encode_cons, List.append_assoc]
  rfl

theorem readName_bytes (name : String) (rest : Bytes) :
    readName (Utf8.encode (stringText name) ++ rest) = .ok (name, rest) := by
  rw [encode_stringText]
  exact readString_escaped name rest

theorem readTokenWith_string (number : Reader Number) (s : String) (rest : Bytes) :
    readTokenWith number (Utf8.encode (stringText s) ++ rest) = .ok (.string s, rest) := by
  have quoted : ∀ text, readTokenWith number (0x22 :: text)
      = (readString text).map fun r => (.string r.1, r.2) := fun _ => rfl
  rw [encode_stringText, quoted, readString_escaped]
  rfl

theorem readMember_colon (part : Reader Json) (members : Members Json) (name : String) (s : Bytes) :
    readMember part members name (0x3A :: s)
      = (part s).map fun (value, s) => (members.insert name value, s) := by
  rw [readMember_eq]
  rfl

def itemsTail : List Json → Bytes
  | [] => [0x5D]
  | item :: rest => 0x2C :: (item.bytes ++ itemsTail rest)

def memberBytes (name : String) (value : Json) : Bytes :=
  Utf8.encode (stringText name) ++ 0x3A :: value.bytes

def membersTail : List (String × Json) → Bytes
  | [] => [0x7D]
  | (name, value) :: rest => 0x2C :: (memberBytes name value ++ membersTail rest)

theorem encode_itemsText (item : Json) (rest : List Json) :
    Utf8.encode (itemsText (item :: rest)) ++ [0x5D] = item.bytes ++ itemsTail rest := by
  induction rest generalizing item with
  | nil => rfl
  | cons other rest ih =>
    rw [itemsText, Utf8.encode_append, List.append_assoc, itemsTail, ← ih]
    · rfl
    · exact fun same => nomatch same

theorem encode_memberText (name : String) (value : Json) :
    Utf8.encode (stringText name ++ ':' :: text value) = memberBytes name value := by
  rw [Utf8.encode_append]
  rfl

theorem encode_membersText (name : String) (value : Json) (rest : List (String × Json)) :
    Utf8.encode (membersText ((name, value) :: rest)) ++ [0x7D]
      = memberBytes name value ++ membersTail rest := by
  induction rest generalizing name value with
  | nil => rw [membersText, encode_memberText, membersTail]
  | cons other rest ih =>
    have split : Utf8.encode (membersText ((name, value) :: other :: rest))
        = memberBytes name value ++ 0x2C :: Utf8.encode (membersText (other :: rest)) := by
      rw [membersText, Utf8.encode_append, encode_memberText]
      · rfl
      · exact fun same => nomatch same
    rw [split, List.append_assoc, membersTail, ← ih]
    rfl

theorem bytes_array (item : Json) (rest : List Json) :
    (Json.array (item :: rest)).bytes = 0x5B :: (item.bytes ++ itemsTail rest) := by
  rw [← encode_itemsText, bytes, text, Utf8.encode_append]
  rfl

theorem bytes_object (name : String) (value : Json) (rest : List (String × Json)) :
    (Json.object ((name, value) :: rest)).bytes
      = 0x7B :: (memberBytes name value ++ membersTail rest) := by
  rw [← encode_membersText, bytes, text, Utf8.encode_append]
  rfl

theorem length_lt_itemsTail (items : List Json) : items.length < (itemsTail items).length := by
  induction items with
  | nil => exact Nat.zero_lt_one
  | cons item rest ih =>
    simp only [itemsTail, List.length_cons, List.length_append]
    omega

theorem length_lt_membersTail (members : List (String × Json)) :
    members.length < (membersTail members).length := by
  induction members with
  | nil => exact Nat.zero_lt_one
  | cons member rest ih =>
    simp only [membersTail, List.length_cons, List.length_append]
    omega

theorem endsNumber_itemsTail (items : List Json) (rest : Bytes) :
    EndsNumber (itemsTail items ++ rest) := by
  cases items with
  | nil => exact endsNumber_cons _ (by decide)
  | cons item items => exact endsNumber_cons _ (by decide)

theorem endsNumber_membersTail (members : List (String × Json)) (rest : Bytes) :
    EndsNumber (membersTail members ++ rest) := by
  cases members with
  | nil => exact endsNumber_cons _ (by decide)
  | cons member members => exact endsNumber_cons _ (by decide)

theorem readItems_item {part : Reader Json} {first : Bool} {s t rest : Bytes} {v : Json}
    (step : next 0x5D first s = .ok (.item t)) (read : part t = .ok (v, rest)) (fuel : Nat)
    (before : List Json) :
    readItems part (fuel + 1) first before s = readItems part fuel false (v :: before) rest := by
  rw [readItems_succ, behindNext_of_item step]
  simp only [read, andThen]

theorem readMembers_member {part : Reader Json} {first : Bool} {s rest : Bytes} {name : String}
    {value v : Json} {t : Bytes}
    (step : next 0x7D first s = .ok (.item (memberBytes name value ++ t)))
    (read : part (value.bytes ++ t) = .ok (v, rest)) (fuel : Nat) (before : Members Json) :
    readMembers readString (readMember part) (fuel + 1) first before s
      = readMembers readString (readMember part) fuel false (Members.insert name v before) rest := by
  rw [readMembers_succ, behindNext_of_item step]
  simp only [memberBytes, List.append_assoc, readName_bytes, andThen, List.cons_append,
    readMember_colon, read, Except.map]

theorem memberBytes_cons (name : String) (value : Json) : ∃ s, memberBytes name value = 0x22 :: s :=
  ⟨_, encode_stringText name (0x3A :: value.bytes)⟩

theorem next_firstItem {v : Json} (plain : v.FloatFree) (rest : Bytes) :
    next 0x5D true (v.bytes ++ rest) = .ok (.item (v.bytes ++ rest)) := by
  obtain ⟨b, s, front, start⟩ := bytes_cons plain
  obtain ⟨notSpace, notClose, -⟩ := isStart_iff.1 start
  rw [front]
  exact next_first notSpace notClose

theorem next_itemBehind {v : Json} (plain : v.FloatFree) (rest : Bytes) :
    next 0x5D false (0x2C :: (v.bytes ++ rest)) = .ok (.item (v.bytes ++ rest)) := by
  obtain ⟨b, s, front, start⟩ := bytes_cons plain
  obtain ⟨notSpace, notClose, -⟩ := isStart_iff.1 start
  rw [front]
  exact next_comma notSpace notClose (by decide)

theorem next_firstMember (name : String) (value : Json) (rest : Bytes) :
    next 0x7D true (memberBytes name value ++ rest)
      = .ok (.item (memberBytes name value ++ rest)) := by
  obtain ⟨s, front⟩ := memberBytes_cons name value
  rw [front]
  exact next_first (by decide) (by decide)

theorem next_memberBehind (name : String) (value : Json) (rest : Bytes) :
    next 0x7D false (0x2C :: (memberBytes name value ++ rest))
      = .ok (.item (memberBytes name value ++ rest)) := by
  obtain ⟨s, front⟩ := memberBytes_cons name value
  rw [front]
  exact next_comma (by decide) (by decide) (by decide)

theorem readValueFrom_array {number : Reader Number} {bound depth : Nat} {s rest : Bytes}
    {items : List Json}
    (read : readItems (readValueFrom number bound depth) bound true [] s = .ok (items, rest)) :
    readValueFrom number bound (depth + 1) (0x5B :: s) = .ok (.array items, rest) := by
  have token : readTokenWith number (0x5B :: s) = .ok (.openArray, s) := rfl
  rw [readValueFrom, readValueWith_eq, token]
  simp only [andThen, readBehind, read, Except.map]

theorem readValueFrom_object {number : Reader Number} {bound depth : Nat} {s rest : Bytes}
    {members : Members Json}
    (read : readMembers readString (readMember (readValueFrom number bound depth)) bound true [] s
      = .ok (members, rest)) :
    readValueFrom number bound (depth + 1) (0x7B :: s) = .ok (.object members, rest) := by
  have token : readTokenWith number (0x7B :: s) = .ok (.openObject, s) := rfl
  rw [readValueFrom, readValueWith_eq, token]
  simp only [andThen, readBehind, read, Except.map]

mutual

/-- A value without floating-point numbers is read back from its text. -/
theorem readValueFrom_bytes : (v : Json) → (bound depth : Nat) → (rest : Bytes) → v.FloatFree →
    v.depth ≤ depth → v.bytes.length < bound → v.HasParts ∨ EndsNumber rest →
    readValueFrom readInteger bound depth (v.bytes ++ rest) = .ok (v.normalize, rest)
  | .null, bound, depth, rest, _, _, _, _ => by
    have read : readTokenWith readInteger (bytes .null ++ rest) = .ok (.null, rest) := rfl
    exact readValueFrom_scalar read (fun _ _ _ => rfl) bound depth
  | .bool true, bound, depth, rest, _, _, _, _ => by
    have read : readTokenWith readInteger (bytes (.bool true) ++ rest) = .ok (.bool true, rest) := rfl
    exact readValueFrom_scalar read (fun _ _ _ => rfl) bound depth
  | .bool false, bound, depth, rest, _, _, _, _ => by
    have read : readTokenWith readInteger (bytes (.bool false) ++ rest) = .ok (.bool false, rest) :=
      rfl
    exact readValueFrom_scalar read (fun _ _ _ => rfl) bound depth
  | .number (.integer i), bound, depth, rest, _, _, _, ends => by
    obtain ⟨b, s, front, start⟩ := signedDecimal_cons i.value
    have read := readInteger_integer i (ends.resolve_left not_false)
    have token : readTokenWith readInteger (bytes (.number (.integer i)) ++ rest)
        = .ok (.number (.integer i), rest) := by
      rw [front] at read
      rw [bytes, text, Number.text, front, List.cons_append, readTokenWith_number _ start]
      rw [List.cons_append] at read
      rw [read]
      rfl
    exact readValueFrom_scalar token (fun _ _ _ => rfl) bound depth
  | .number (.float x), _, _, _, plain, _, _, _ => absurd plain not_false
  | .string s, bound, depth, rest, _, _, _, _ =>
    readValueFrom_scalar (readTokenWith_string readInteger s rest) (fun _ _ _ => rfl) bound depth
  | .array [], bound + 1, depth + 1, rest, _, _, _, _ => by
    have text : bytes (.array []) ++ rest = 0x5B :: 0x5D :: rest := rfl
    rw [text]
    apply readValueFrom_array
    rw [readItems_succ, behindNext_of_closed (next_close true (by decide))]
    rfl
  | .array (item :: items), bound + 1, depth + 1, rest, plain, shallow, short, _ => by
    have shallow' := Nat.max_le.1 (Nat.le_of_succ_le_succ shallow)
    have count := length_lt_itemsTail items
    rw [bytes_array, List.length_cons, List.length_append] at short
    have value := readValueFrom_bytes item (bound + 1) depth (itemsTail items ++ rest) plain.1
      shallow'.1 (by omega) (.inr (endsNumber_itemsTail items rest))
    have others := readItems_itemsTail items (bound + 1) depth bound [item.normalize] rest plain.2
      shallow'.2 (by omega) (by omega)
    rw [bytes_array, List.cons_append, List.append_assoc]
    apply readValueFrom_array
    rw [readItems_item (next_firstItem plain.1 _) value, others]
    rfl
  | .object [], bound + 1, depth + 1, rest, _, _, _, _ => by
    have text : bytes (.object []) ++ rest = 0x7B :: 0x7D :: rest := rfl
    rw [text]
    apply readValueFrom_object
    rw [readMembers_succ, behindNext_of_closed (next_close true (by decide))]
    rfl
  | .object ((name, value) :: members), bound + 1, depth + 1, rest, plain, shallow, short, _ => by
    have shallow' := Nat.max_le.1 (Nat.le_of_succ_le_succ shallow)
    have count := length_lt_membersTail members
    simp only [bytes_object, memberBytes, List.length_cons, List.length_append] at short
    have read := readValueFrom_bytes value (bound + 1) depth (membersTail members ++ rest) plain.1
      shallow'.1 (by omega) (.inr (endsNumber_membersTail members rest))
    have others := readMembers_membersTail members (bound + 1) depth bound
      (Members.insert name value.normalize []) rest plain.2 shallow'.2 (by omega) (by omega)
    rw [bytes_object, List.cons_append, List.append_assoc]
    apply readValueFrom_object
    rw [readMembers_member (next_firstMember name value _) read, others,
      ← foldl_insert_normalEntries]
    rfl
  | .array _, 0, _, _, _, _, short, _ => absurd short (Nat.not_lt_zero _)
  | .object _, 0, _, _, _, _, short, _ => absurd short (Nat.not_lt_zero _)
  | .array _, _, 0, _, _, shallow, _, _ => absurd shallow (Nat.not_succ_le_zero _)
  | .object _, _, 0, _, _, shallow, _, _ => absurd shallow (Nat.not_succ_le_zero _)

theorem readItems_itemsTail : (items : List Json) → (bound depth fuel : Nat) → (before : List Json) →
    (rest : Bytes) → FloatFreeItems items → itemsDepth items ≤ depth →
    (itemsTail items).length < bound → items.length < fuel →
    readItems (readValueFrom readInteger bound depth) fuel false before (itemsTail items ++ rest)
      = .ok (before.reverse ++ normalizeItems items, rest)
  | [], bound, depth, fuel + 1, before, rest, _, _, _, _ => by
    rw [readItems_succ, itemsTail, List.singleton_append,
      behindNext_of_closed (next_close false (by decide))]
    simp [normalizeItems]
  | item :: items, bound, depth, fuel + 1, before, rest, plain, shallow, short, enough => by
    have shallow' := Nat.max_le.1 shallow
    rw [itemsTail, List.length_cons, List.length_append] at short
    have value := readValueFrom_bytes item bound depth (itemsTail items ++ rest) plain.1 shallow'.1
      (by omega) (.inr (endsNumber_itemsTail items rest))
    have others := readItems_itemsTail items bound depth fuel (item.normalize :: before) rest plain.2
      shallow'.2 (by omega) (Nat.lt_of_succ_lt_succ enough)
    rw [itemsTail, List.cons_append, List.append_assoc,
      readItems_item (next_itemBehind plain.1 _) value, others]
    simp [normalizeItems]
  | _, _, _, 0, _, _, _, _, _, enough => absurd enough (Nat.not_lt_zero _)

theorem readMembers_membersTail : (members : List (String × Json)) → (bound depth fuel : Nat) →
    (before : Members Json) → (rest : Bytes) → FloatFreeMembers members →
    membersDepth members ≤ depth → (membersTail members).length < bound → members.length < fuel →
    readMembers readString (readMember (readValueFrom readInteger bound depth)) fuel false before
        (membersTail members ++ rest)
      = .ok ((normalEntries members).foldl
          (fun members entry => Members.insert entry.1 entry.2 members) before, rest)
  | [], bound, depth, fuel + 1, before, rest, _, _, _, _ => by
    rw [readMembers_succ, membersTail, List.singleton_append,
      behindNext_of_closed (next_close false (by decide))]
    rfl
  | (name, value) :: members, bound, depth, fuel + 1, before, rest, plain, shallow, short, enough => by
    have shallow' := Nat.max_le.1 shallow
    simp only [membersTail, memberBytes, List.length_cons, List.length_append] at short
    have read := readValueFrom_bytes value bound depth (membersTail members ++ rest) plain.1
      shallow'.1 (by omega) (.inr (endsNumber_membersTail members rest))
    have others := readMembers_membersTail members bound depth fuel
      (Members.insert name value.normalize before) rest plain.2 shallow'.2 (by omega)
      (Nat.lt_of_succ_lt_succ enough)
    rw [membersTail, List.cons_append, List.append_assoc,
      readMembers_member (next_memberBehind name value _) read, others]
    rfl
  | _, _, _, 0, _, _, _, _, _, enough => absurd enough (Nat.not_lt_zero _)

end

/-- An array or object without floating-point numbers is read back from its text, whatever follows. -/
theorem readValueBy_bytes {v : Json} (plain : v.FloatFree) (parts : v.HasParts)
    (shallow : v.depth ≤ greatestDepth) (rest : Bytes) :
    readValueBy readInteger (v.bytes ++ rest) = .ok (v.normalize, rest) := by
  refine readValueFrom_bytes v _ greatestDepth rest plain shallow ?_ (.inl parts)
  rw [List.length_append]
  omega

end AccelControl.Json
