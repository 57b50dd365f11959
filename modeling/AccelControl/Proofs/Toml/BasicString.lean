import AccelControl.Toml.Lexical
import Mathlib.Data.List.Forall2

/-! The strings of TOML text on one line, with any of their characters escaped.

A character may be written as itself, by a letter that stands for it, or by its code point in four or
eight digits. Whichever way is taken for each, the string is read back.
-/

set_option autoImplicit false

namespace AccelControl.Toml

def Codes (digits : List Char) (code : Nat) : Prop :=
  ∃ values, List.Forall₂ (fun d v => Text.hexDigit? d = some v) digits values
    ∧ Text.digitsFrom 16 0 values = code

/-- The letters in front of a code point, and the number of its digits behind each. -/
def codeMarks : List (Char × Nat) := [('u', 4), ('U', 8)]

inductive Spells : List Char → Char → Prop
  | plain {c : Char} (text : isText c = true) (noQuote : c ≠ '"') (noBackslash : c ≠ '\\') :
      Spells [c] c
  | letter {letter c : Char} (stands : simpleEscape? letter = some c) : Spells ['\\', letter] c
  | code {mark : Char} {digits : List Char} {c : Char} (marked : (mark, digits.length) ∈ codeMarks)
      (codes : Codes digits c.toNat) : Spells ('\\' :: mark :: digits) c

/-- A string between quotation marks, with each character written in one of its ways. -/
def Quotes (text : List Char) (s : String) : Prop :=
  ∃ pieces, List.Forall₂ Spells pieces s.toList ∧ text = '"' :: pieces.flatten ++ ['"']

variable {done rest : List Char} {c : Char}

theorem charOf?_toNat (c : Char) : charOf? c.toNat = some c := by
  have valid : c.toNat.isValidChar := c.valid
  rw [charOf?, if_pos valid, Char.ofNat_toNat]

theorem readBasicFrom_step {state next : StringState} {d : Char} {completed : Option Char}
    (step : stepEscape? state d = some (next, completed)) (inside : state ≠ .plain) :
    readBasicFrom state done (d :: rest) = readBasicFrom next (completed.toList ++ done) rest := by
  rw [readBasicFrom, step]
  · cases completed with
    | none => rfl
    | some c => rfl
  · exact inside

theorem readBasicFrom_digits {digits : List Char} {values : List Nat} {value : Nat}
    (hex : List.Forall₂ (fun d v => Text.hexDigit? d = some v) digits values) (owed : digits ≠ [])
    (code : Text.digitsFrom 16 value values = c.toNat) :
    readBasicFrom (.digits digits.length value) done (digits ++ rest)
      = readBasicFrom .plain (c :: done) rest := by
  induction hex generalizing value with
  | nil => exact absurd rfl owed
  | @cons d v digits values this others ih =>
    cases others with
    | nil =>
      have last : value * 16 + v = c.toNat := code
      have step : stepEscape? (.digits 1 value) d = some (.plain, some c) := by
        simp [stepEscape?, this, last, charOf?_toNat]
      exact readBasicFrom_step step nofun
    | @cons d' v' digits values this' others =>
      have step : stepEscape? (.digits (digits.length + 2) value) d
          = some (.digits (digits.length + 1) (value * 16 + v), none) := by
        simp [stepEscape?, this]
      exact (readBasicFrom_step step nofun).trans (ih (List.cons_ne_nil _ _) code)

theorem stepEscape?_mark {mark : Char} {count : Nat} (marked : (mark, count) ∈ codeMarks) :
    stepEscape? .escape mark = some (.digits count 0, none) ∧ 0 < count := by
  simp only [codeMarks, List.mem_cons, List.not_mem_nil, or_false, Prod.mk.injEq] at marked
  rcases marked with ⟨rfl, rfl⟩ | ⟨rfl, rfl⟩
  · exact ⟨rfl, by decide⟩
  · exact ⟨rfl, by decide⟩

theorem readBasicFrom_plain (text : isText c = true) (noQuote : c ≠ '"') (noBackslash : c ≠ '\\') :
    readBasicFrom .plain done (c :: rest) = readBasicFrom .plain (c :: done) rest := by
  rw [readBasicFrom, if_neg noQuote, if_neg noBackslash, if_pos text]

theorem readBasicFrom_spelled {text : List Char} (spelled : Spells text c) :
    readBasicFrom .plain done (text ++ rest) = readBasicFrom .plain (c :: done) rest := by
  cases spelled with
  | plain text noQuote noBackslash => exact readBasicFrom_plain text noQuote noBackslash
  | @letter letter c stands =>
    have step : stepEscape? .escape letter = some (.plain, some c) := by simp [stepEscape?, stands]
    have read : readBasicFrom .escape done (letter :: rest) = readBasicFrom .plain (c :: done) rest :=
      readBasicFrom_step step nofun
    exact read
  | @code mark digits c marked codes =>
    obtain ⟨values, hex, value⟩ := codes
    obtain ⟨step, owed⟩ := stepEscape?_mark marked
    have read : readBasicFrom .escape done (mark :: (digits ++ rest))
        = readBasicFrom .plain (c :: done) rest :=
      (readBasicFrom_step step nofun).trans
        (readBasicFrom_digits hex (List.ne_nil_of_length_pos owed) value)
    exact read

theorem readBasicFrom_pieces {pieces : List (List Char)} {s : List Char}
    (spelled : List.Forall₂ Spells pieces s) :
    readBasicFrom .plain done (pieces.flatten ++ '"' :: rest)
      = some (String.ofList (done.reverse ++ s), rest) := by
  induction spelled generalizing done with
  | nil => rw [List.flatten_nil, List.nil_append, readBasicFrom, if_pos rfl, List.append_nil]
  | @cons piece c pieces s this others ih =>
    rw [List.flatten_cons, List.append_assoc, readBasicFrom_spelled this, ih, List.reverse_cons,
      List.append_assoc, List.singleton_append]

theorem Spells.ne_quote_cons {text : List Char} (spelled : Spells text c) (rest s : List Char) :
    text ++ rest ≠ '"' :: s := by
  cases spelled with
  | plain text noQuote noBackslash => simp [noQuote]
  | letter stands => simp
  | code marked codes => simp

-- Two more quotation marks behind the first would begin a string of several lines.
theorem readQuoted_of_not_lines {s : List Char} (single : ∀ t, s ≠ '"' :: '"' :: t) :
    readQuoted ('"' :: s) = readBasicFrom .plain [] s := by
  unfold readQuoted
  split
  · next t same => exact absurd (List.cons.inj same).2 (single t)
  · next t _ same => rw [(List.cons.inj same).2]
  · next same => exact absurd rfl (same s)

theorem readQuoted_quotes {text : List Char} {s : String} (quotes : Quotes text s)
    (apart : ∀ t, rest ≠ '"' :: t) : readQuoted (text ++ rest) = some (s, rest) := by
  obtain ⟨pieces, spelled, rfl⟩ := quotes
  rw [List.append_assoc, List.cons_append, List.singleton_append, readQuoted_of_not_lines,
    readBasicFrom_pieces spelled, List.reverse_nil, List.nil_append, String.ofList_toList]
  intro t same
  generalize s.toList = chars at spelled
  cases spelled with
  | nil => exact apart t (List.cons.inj same).2
  | cons this others =>
    rw [List.flatten_cons, List.append_assoc] at same
    exact this.ne_quote_cons _ _ same

section writing

theorem hexDigit?_digitChar {d : Nat} (small : d < 16) : Text.hexDigit? (Nat.digitChar d) = some d := by
  have all : ∀ d : Fin 16, Text.hexDigit? (Nat.digitChar d.val) = some d.val := by decide
  exact all ⟨d, small⟩

/-- Write a character as itself if that is allowed, and else by its code point. -/
def escaped (c : Char) : List Char :=
  if isText c = true ∧ c ≠ '"' ∧ c ≠ '\\' then [c]
  else ['\\', 'u', '0', '0', Nat.digitChar (c.toNat / 16), Nat.digitChar (c.toNat % 16)]

-- Only characters of ASCII are not allowed to stand for themselves.
theorem toNat_lt_of_not_plain (other : ¬(isText c = true ∧ c ≠ '"' ∧ c ≠ '\\')) :
    c.toNat < 128 := by
  apply Nat.lt_of_not_le
  intro large
  have apart {d : Char} (small : d.toNat < 128) : c ≠ d := by
    rintro rfl
    omega
  have text : isText c = true := by
    have above : ' ' ≤ c := Nat.le_trans (m := 128) (by decide) large
    simp [isText, above, apart (d := '\x7f') (by decide)]
  exact other ⟨text, apart (by decide), apart (by decide)⟩

theorem spells_escaped (c : Char) : Spells (escaped c) c := by
  rw [escaped]
  split
  · next plain => exact .plain plain.1 plain.2.1 plain.2.2
  · next other =>
    have small := toNat_lt_of_not_plain other
    refine .code List.mem_cons_self ⟨[0, 0, c.toNat / 16, c.toNat % 16], ?_, ?_⟩
    · have zero := hexDigit?_digitChar (d := 0) (by decide)
      exact .cons zero (.cons zero (.cons (hexDigit?_digitChar (by omega))
        (.cons (hexDigit?_digitChar (by omega)) .nil)))
    · simp only [Text.digitsFrom, List.foldl_cons, List.foldl_nil]
      omega

def quoted (s : String) : List Char := '"' :: s.toList.flatMap escaped ++ ['"']

theorem quotes_quoted (s : String) : Quotes (quoted s) s := by
  refine ⟨s.toList.map escaped, ?_, rfl⟩
  rw [List.forall₂_map_left_iff, List.forall₂_same]
  exact fun c _ => spells_escaped c

end writing

end AccelControl.Toml
