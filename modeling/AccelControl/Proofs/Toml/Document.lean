import AccelControl.Proofs.Toml.BasicString
import AccelControl.Proofs.Toml.Number
import AccelControl.Toml.Document

/-! TOML documents without tables: a name and a value on each line.

The names need no quotation marks, and none occurs twice. Such a document is read as its entries in the
order of its lines.
-/

set_option autoImplicit false

namespace AccelControl.Toml

inductive Writes : Value → List Char → Prop
  | string {s : String} {text : List Char} (quotes : Quotes text s) : Writes (.string s) text
  | natural {n : Nat} (fits : n < 0x8000000000000000) : Writes (.integer n) (Text.decimal n)

def line (name : String) (text : List Char) : List Char := name.toList ++ ' ' :: '=' :: ' ' :: text

/-- A text with a line for each entry. The last line may be left open. -/
inductive Lines : List (String × Value) → List Char → Prop
  | nil : Lines [] []
  | last {name : String} {v : Value} {text : List Char} (writes : Writes v text) :
      Lines [(name, v)] (line name text)
  | cons {name : String} {v : Value} {text rest : List Char} {entries : List (String × Value)}
      (writes : Writes v text) (others : Lines entries rest) :
      Lines ((name, v) :: entries) (line name text ++ '\n' :: rest)

theorem exists_lines {entries : List (String × Value)}
    (writes : ∀ entry ∈ entries, ∃ text, Writes entry.2 text) :
    ∃ text : String, Lines entries text.toList := by
  induction entries with
  | nil => exact ⟨"", .nil⟩
  | cons entry entries ih =>
    obtain ⟨⟨text, written⟩, others⟩ := List.forall_mem_cons.1 writes
    obtain ⟨rest, lines⟩ := ih others
    refine ⟨String.ofList (line entry.1 text ++ '\n' :: rest.toList), ?_⟩
    rw [String.toList_ofList]
    exact .cons written lines

def Bare (name : String) : Prop := name.toList ≠ [] ∧ name.toList.all isBare = true

instance (name : String) : Decidable (Bare name) := inferInstanceAs (Decidable (_ ∧ _))

theorem Bare.front {name : String} (bare : Bare name) :
    ∃ c s, name.toList = c :: s ∧ isBare c = true := by
  obtain ⟨c, s, spelled⟩ := List.exists_cons_of_ne_nil bare.1
  exact ⟨c, s, spelled, List.all_eq_true.1 bare.2 c (spelled ▸ List.mem_cons_self)⟩

variable {rest : List Char}

section value

theorem readValue_quotes {text : List Char} {s : String} (quotes : Quotes text s) (ends : LineEnd rest) :
    readValue (text ++ rest) = some (.string s, rest) := by
  have apart : ∀ t, rest ≠ '"' :: t := by
    rintro t rfl
    cases ends
  have read := readQuoted_quotes quotes apart
  obtain ⟨pieces, -, rfl⟩ := quotes
  have front : readValue ('"' :: pieces.flatten ++ ['"'] ++ rest)
      = (readQuoted ('"' :: pieces.flatten ++ ['"'] ++ rest)).map fun read =>
          (.string read.1, read.2) := rfl
  rw [front, read]
  rfl

theorem readValueWith_digit {item : Option (Reader Value)} {c : Char} {s : List Char}
    (decimal : '0' ≤ c ∧ c ≤ '9') :
    readValueWith item (c :: s) = (readMoment (c :: s)).or (readNumber (c :: s)) := by
  have apart {d : Char} (other : ¬('0' ≤ d ∧ d ≤ '9')) : c ≠ d := by
    rintro rfl
    exact other decimal
  rw [readValueWith, if_neg (apart (by decide)), if_neg (apart (by decide)), if_neg (apart (by decide)),
    if_neg (apart (by decide))]
  split
  · next same => exact absurd (List.cons.inj same).1 (apart (by decide))
  · next same => exact absurd (List.cons.inj same).1 (apart (by decide))
  · rfl

theorem readValue_decimal {n : Nat} (fits : n < 0x8000000000000000) (ends : LineEnd rest) :
    readValue (Text.decimal n ++ rest) = some (.integer n, rest) := by
  have moment := readMoment_of_digital (digital_decimal n ends)
  have number := readNumber_decimal fits ends
  obtain ⟨first, others, digits, small, -⟩ := Text.decimal_eq_digits n
  rw [digits, List.map_cons, List.cons_append] at moment number ⊢
  refine (readValueWith_digit (isDecimal_digitChar (small first List.mem_cons_self))).trans ?_
  rw [moment, number]
  rfl

theorem readValue_written {v : Value} {text : List Char} (writes : Writes v text) (ends : LineEnd rest) :
    readValue (text ++ rest) = some (v, rest) := by
  cases writes with
  | string quotes => exact readValue_quotes quotes ends
  | natural fits => exact readValue_decimal fits ends

end value

section entry

variable {name : String} {v : Value} {text : List Char}

theorem ne_of_bare {c d : Char} (bare : isBare c = true) (other : isBare d = false) : c ≠ d := by
  rintro rfl
  exact Bool.false_ne_true (other.symm.trans bare)

theorem cons_ne_of_bare {c d : Char} (bare : isBare c = true) (other : isBare d = false)
    (s t : List Char) : c :: s ≠ d :: t :=
  fun same => ne_of_bare bare other (List.cons.inj same).1

theorem skipSpace_bare {c : Char} (bare : isBare c = true) (s : List Char) :
    skipSpace (c :: s) = c :: s := by
  have space : isSpace c = false := by
    simp [isSpace, ne_of_bare bare (d := ' ') (by decide), ne_of_bare bare (d := '\t') (by decide)]
  rw [skipSpace, List.dropWhile_cons, space]
  rfl

theorem readName_bare (bare : Bare name) (s : List Char) :
    readName (name.toList ++ ' ' :: s) = some (name, ' ' :: s) := by
  obtain ⟨c, others, spelled, first⟩ := bare.front
  have whole : ∀ d ∈ name.toList, isBare d = true := List.all_eq_true.1 bare.2
  have blank : isBare ' ' = false := by decide
  unfold readName
  split
  · next t same =>
    rw [spelled] at same
    exact absurd same (cons_ne_of_bare first (by decide) _ _)
  · next t same =>
    rw [spelled] at same
    exact absurd same (cons_ne_of_bare first (by decide) _ _)
  · rw [List.takeWhile_append_of_pos whole, List.dropWhile_append_of_pos whole,
      List.takeWhile_cons_of_neg (by simp [blank]), List.dropWhile_cons_of_neg (by simp [blank]),
      List.append_nil]
    dsimp only
    rw [String.ofList_toList, spelled]
    rfl

theorem readKey_bare (bare : Bare name) (s : List Char) :
    readKey (name.toList ++ ' ' :: '=' :: s) = some ([name], '=' :: s) := by
  have read := readName_bare bare ('=' :: s)
  obtain ⟨c, others, spelled, first⟩ := bare.front
  have front : skipSpace (name.toList ++ ' ' :: '=' :: s) = name.toList ++ ' ' :: '=' :: s := by
    rw [spelled]
    exact skipSpace_bare first _
  have behind : skipSpace (' ' :: '=' :: s) = '=' :: s := rfl
  rw [readKey, depthLimit, readDotted, front, read]
  simp only [behind]
  rfl

theorem readLineEnd?_last : readLineEnd? [] = some [] := rfl

theorem readLineEnd?_newline (s : List Char) : readLineEnd? ('\n' :: s) = some s := rfl

theorem Writes.head {c : Char} {s : List Char} (writes : Writes v text)
    (front : text ++ rest = c :: s) : isSpace c = false := by
  cases writes with
  | string quotes =>
    obtain ⟨pieces, -, rfl⟩ := quotes
    cases front
    rfl
  | @natural n fits =>
    obtain ⟨first, others, digits, small, -⟩ := Text.decimal_eq_digits n
    rw [digits] at front
    cases front
    have all : ∀ d : Fin 10, isSpace (Nat.digitChar d.val) = false := by decide
    exact all ⟨first, small first List.mem_cons_self⟩

theorem readEquals_written (writes : Writes v text) (rest : List Char) :
    readEquals ('=' :: ' ' :: (text ++ rest)) = some (text ++ rest) := by
  have blank : readEquals ('=' :: ' ' :: (text ++ rest)) = some (skipSpace (text ++ rest)) := rfl
  rw [blank]
  cases front : text ++ rest with
  | nil => rfl
  | cons c s => rw [skipSpace, List.dropWhile_cons_of_neg (by simp [writes.head front])]

/-- The line of an entry is read to its end. -/
theorem readEntry_line (bare : Bare name) (writes : Writes v text) (ends : LineEnd rest)
    {behind : List Char} (closes : readLineEnd? rest = some behind) :
    readEntry (line name text ++ rest) = some ((([], name), v), behind) := by
  have key : splitKey [name] = some ([], name) := rfl
  rw [line, List.append_assoc, readEntry]
  simp only [List.cons_append, readKey_bare bare, key, readEquals_written writes,
    readValue_written writes ends, closes, Option.bind_eq_bind, Option.bind_some]

end entry

section document

variable {name : String} {v : Value} {text : List Char} {before : Entries} {bound : Nat}

def Progress.plain (entries : Entries) : Progress := ⟨[], .document, entries⟩

theorem addValue?_plain (fresh : name ∉ before.map (·.1)) :
    (Progress.plain before).addValue? [] name v = some (.plain (before ++ [(name, .value v)])) := by
  have missing : Entries.find? name before = none := by
    rw [Entries.find?, Option.map_eq_none_iff, List.find?_eq_none]
    intro entry mem same
    exact fresh (List.mem_map.2 ⟨entry, mem, eq_of_beq same⟩)
  simp [Progress.addValue?, Progress.plain, Entries.addValue?, Entries.update?, missing]

theorem readLines_entry {c : Char} {s behind : List Char} {p next : Progress} (bare : isBare c = true)
    (read : readEntry (c :: s) = some ((([], name), v), behind))
    (added : p.addValue? [] name v = some next) :
    readLines (bound + 1) p (c :: s) = readLines bound next behind := by
  rw [readLines, skipSpace_bare bare]
  split
  · next same => exact nomatch same
  · next same => exact absurd same (cons_ne_of_bare bare (by decide) _ _)
  · next same => exact absurd same (cons_ne_of_bare bare (by decide) _ _)
  · next same =>
    obtain ⟨rfl, rfl⟩ := List.cons.inj same
    have entry : ¬(c = '#' ∨ c = '\n' ∨ c = '\r') := by
      rintro (same | same | same)
      · exact ne_of_bare bare (by decide) same
      · exact ne_of_bare bare (by decide) same
      · exact ne_of_bare bare (by decide) same
    rw [if_neg entry, read]
    simp [added]

theorem readLines_line (bare : Bare name) (writes : Writes v text) (ends : LineEnd rest)
    {behind : List Char} (closes : readLineEnd? rest = some behind)
    (fresh : name ∉ before.map (·.1)) :
    readLines (bound + 1) (.plain before) (line name text ++ rest)
      = readLines bound (.plain (before ++ [(name, .value v)])) behind := by
  have read := readEntry_line bare writes ends closes
  obtain ⟨c, s, spelled, first⟩ := bare.front
  rw [line, spelled, List.cons_append, List.cons_append] at read ⊢
  exact readLines_entry first read (addValue?_plain fresh)

-- Each line takes one from the bound, and it has at least one character.
theorem readLines_lines {entries : List (String × Value)} (lines : Lines entries text)
    (bare : ∀ entry ∈ entries, Bare entry.1) (distinct : (entries.map (·.1)).Nodup)
    (fresh : ∀ entry ∈ entries, entry.1 ∉ before.map (·.1)) (fits : text.length ≤ bound) :
    readLines (bound + 1) (.plain before) text
      = some (before ++ entries.map fun entry => (entry.1, .value entry.2)) := by
  induction lines generalizing before bound with
  | nil =>
    rw [List.map_nil, List.append_nil]
    rfl
  | @last name v text writes =>
    rw [line, List.length_append, List.length_cons] at fits
    obtain ⟨bound, rfl⟩ := Nat.exists_eq_succ_of_ne_zero (show bound ≠ 0 by omega)
    calc readLines (bound + 2) (.plain before) (line name text)
      _ = readLines (bound + 2) (.plain before) (line name text ++ []) := by rw [List.append_nil]
      _ = readLines (bound + 1) (.plain (before ++ [(name, .value v)])) [] :=
        readLines_line (bare _ List.mem_cons_self) writes .last readLineEnd?_last
          (fresh _ List.mem_cons_self)
      _ = some (before ++ [(name, .value v)]) := rfl
  | @cons name v text rest entries writes others ih =>
    obtain ⟨this, distinct'⟩ := List.nodup_cons.1 distinct
    obtain ⟨bare, bare'⟩ := List.forall_mem_cons.1 bare
    obtain ⟨fresh, fresh'⟩ := List.forall_mem_cons.1 fresh
    rw [List.length_append, List.length_cons] at fits
    obtain ⟨bound, rfl⟩ := Nat.exists_eq_succ_of_ne_zero (show bound ≠ 0 by omega)
    have fresh'' : ∀ entry ∈ entries,
        entry.1 ∉ (before ++ [(name, Entry.value v)]).map (·.1) := by
      intro entry mem
      rw [List.map_append, List.mem_append, not_or]
      refine ⟨fresh' entry mem, fun same => this ?_⟩
      rw [← List.mem_singleton.1 same]
      exact List.mem_map_of_mem mem
    calc readLines (bound + 2) (.plain before) (line name text ++ '\n' :: rest)
      _ = readLines (bound + 1) (.plain (before ++ [(name, .value v)])) rest :=
        readLines_line bare writes (.newline rest) (readLineEnd?_newline rest) fresh
      _ = some (before ++ [(name, .value v)] ++ entries.map fun entry => (entry.1, .value entry.2)) :=
        ih bare' distinct' fresh'' (by omega)
      _ = some (before ++ ((name, v) :: entries).map fun entry => (entry.1, .value entry.2)) := by
        rw [List.append_assoc]
        rfl

theorem bare_of_line {c : Char} {s : List Char} (bare : Bare name)
    (front : line name text ++ rest = c :: s) : isBare c = true := by
  obtain ⟨d, t, spelled, first⟩ := bare.front
  rw [line, spelled, List.cons_append, List.cons_append] at front
  exact (List.cons.inj front).1 ▸ first

theorem Lines.bare_head {entries : List (String × Value)} (lines : Lines entries text)
    (bare : ∀ entry ∈ entries, Bare entry.1) {c : Char} {s : List Char} (front : text = c :: s) :
    isBare c = true := by
  cases lines with
  | nil => exact nomatch front
  | last writes =>
    rw [← List.append_nil (line _ _)] at front
    exact bare_of_line (bare _ List.mem_cons_self) front
  | cons writes others => exact bare_of_line (bare _ List.mem_cons_self) front

/-- A document is read as the entries of its lines. -/
theorem parse_lines {entries : List (String × Value)} {text : String}
    (lines : Lines entries text.toList) (bare : ∀ entry ∈ entries, Bare entry.1)
    (distinct : (entries.map (·.1)).Nodup) :
    parse text = some (entries.map fun entry => (entry.1, .value entry.2)) := by
  have read : readLines (text.toList.length + 1) (.plain []) text.toList
      = some (entries.map fun entry => (entry.1, .value entry.2)) :=
    readLines_lines lines bare distinct (fun _ _ => List.not_mem_nil) (Nat.le_refl _)
  unfold parse
  split
  · next s marked => exact nomatch lines.bare_head bare marked
  · exact read

end document

end AccelControl.Toml
