import AccelControl.Json.Printer
import AccelControl.Json.StringReader
import AccelControl.Text.Utf8.RoundTrip

/-! Strings, read back from their text. -/

set_option autoImplicit false

namespace AccelControl.Json

def isPlain (b : UInt8) : Bool := b != 0x22 && b != 0x5C && !(b < 0x20)

theorem readStringFrom_plain {bytes : Bytes} (plain : ∀ b ∈ bytes, isPlain b = true)
    (done rest : Bytes) : readStringFrom .plain done (bytes ++ rest)
      = readStringFrom .plain (bytes.reverse ++ done) rest := by
  induction bytes generalizing done with
  | nil => rfl
  | cons b bytes ih =>
    have itself := plain b List.mem_cons_self
    simp only [isPlain, Bool.and_eq_true, bne_iff_ne, ne_eq, Bool.not_eq_true',
      decide_eq_false_iff_not] at itself
    obtain ⟨⟨notQuote, notEscape⟩, notControl⟩ := itself
    rw [List.cons_append, readStringFrom, if_neg notQuote, if_neg notEscape, if_neg notControl,
      ih fun c mem => plain c (List.mem_cons_of_mem b mem)]
    simp

theorem isPlain_ofNat {n : Nat} (small : n < 256) (notControl : 0x20 ≤ n) (notQuote : n ≠ 0x22)
    (notEscape : n ≠ 0x5C) : isPlain (UInt8.ofNat n) = true := by
  simp only [isPlain, Bool.and_eq_true, bne_iff_ne, ne_eq, Bool.not_eq_true', decide_eq_false_iff_not,
    UInt8.lt_iff_toNat_lt, ← UInt8.toNat_inj, Utf8.toNat_byte small]
  exact ⟨⟨notQuote, notEscape⟩, Nat.not_lt.2 notControl⟩

-- Characters that need no escape are made of bytes that stand for themselves.
theorem isPlain_utf8EncodeChar {c : Char} (notControl : ¬c.toNat < 0x20) (notQuote : c ≠ '"')
    (notEscape : c ≠ '\\') : ∀ b ∈ String.utf8EncodeChar c, isPlain b = true := by
  have valid : c.val.toNat.isValidChar := c.valid
  have different : ∀ d : Char, c ≠ d → c.val.toNat ≠ d.val.toNat := fun d other same =>
    other (Char.ext (UInt32.toNat_inj.1 same))
  have quote : c.val.toNat ≠ 0x22 := different '"' notQuote
  have escape : c.val.toNat ≠ 0x5C := different '\\' notEscape
  have control : ¬c.val.toNat < 0x20 := notControl
  simp only [Nat.isValidChar] at valid
  simp only [String.utf8EncodeChar]
  generalize c.val.toNat = v at valid quote escape control
  intro b mem
  split at mem
  · rw [List.mem_singleton] at mem
    rw [mem]
    exact isPlain_ofNat (by omega) (by omega) quote escape
  · -- All bytes of a character of several bytes are at least 0x80.
    have high : ∀ n, 0x80 ≤ n → n < 256 → isPlain (UInt8.ofNat n) = true := fun n least small =>
      isPlain_ofNat small (by omega) (by omega) (by omega)
    split at mem
    · simp only [List.mem_cons, List.not_mem_nil, or_false] at mem
      rcases mem with rfl | rfl
      · exact high _ (by omega) (by omega)
      · exact high _ (by omega) (by omega)
    split at mem
    · simp only [List.mem_cons, List.not_mem_nil, or_false] at mem
      rcases mem with rfl | rfl | rfl
      · exact high _ (by omega) (by omega)
      · exact high _ (by omega) (by omega)
      · exact high _ (by omega) (by omega)
    · simp only [List.mem_cons, List.not_mem_nil, or_false] at mem
      rcases mem with rfl | rfl | rfl | rfl
      · exact high _ (by omega) (by omega)
      · exact high _ (by omega) (by omega)
      · exact high _ (by omega) (by omega)
      · exact high _ (by omega) (by omega)

-- The escape of a control character is a code unit of four digits.
theorem encode_control : ∀ n : Fin 32, ∃ high low : UInt8,
    Utf8.encode ['\\', 'u', '0', '0', Nat.digitChar (n.val / 16), Nat.digitChar (n.val % 16)]
        = [0x5C, 0x75, 0x30, 0x30, high, low] ∧
      (codeUnit? [0x30, 0x30, high, low]).bind (afterCodeUnit none)
        = some (.plain, String.utf8EncodeChar (Char.ofNat n.val)) := by
  intro n
  refine ⟨(Utf8.encode [Nat.digitChar (n.val / 16)]).headD 0,
    (Utf8.encode [Nat.digitChar (n.val % 16)]).headD 0, ?_⟩
  revert n
  decide

theorem readStringFrom_escapedChar (c : Char) (done rest : Bytes) :
    readStringFrom .plain done (Utf8.encode (escapedChar c) ++ rest)
      = readStringFrom .plain ((String.utf8EncodeChar c).reverse ++ done) rest := by
  simp only [escapedChar]
  split
  · next same => subst same; rfl
  split
  · next same => subst same; rfl
  split
  · next same => subst same; rfl
  split
  · next same => subst same; rfl
  split
  · next same => subst same; rfl
  split
  · next same => subst same; rfl
  split
  · next same => subst same; rfl
  split
  · next control =>
    obtain ⟨high, low, written, unit⟩ := encode_control ⟨c.toNat, control⟩
    rw [show Char.ofNat c.toNat = c from Char.ofNat_toNat c] at unit
    rw [written]
    simp [readStringFrom, simpleEscape?, unit]
  · next notQuote notEscape _ _ _ _ _ notControl =>
    have plain := isPlain_utf8EncodeChar notControl notQuote notEscape
    rw [Utf8.encode_cons, Utf8.encode_nil, List.append_nil, readStringFrom_plain plain]

theorem readStringFrom_escaped (chars : List Char) (done rest : Bytes) :
    readStringFrom .plain done (Utf8.encode (chars.flatMap escapedChar) ++ rest)
      = readStringFrom .plain ((Utf8.encode chars).reverse ++ done) rest := by
  induction chars generalizing done with
  | nil => rfl
  | cons c chars ih =>
    rw [List.flatMap_cons, Utf8.encode_append, List.append_assoc, readStringFrom_escapedChar, ih,
      Utf8.encode_cons, List.reverse_append, List.append_assoc]

/-- A string is read back from its text. -/
theorem readString_escaped (s : String) (rest : Bytes) :
    readString (Utf8.encode (s.toList.flatMap escapedChar) ++ 0x22 :: rest) = .ok (s, rest) := by
  have text : Utf8.string? (Utf8.encode s.toList) = some s := Utf8.string?_ofString s
  rw [readString, readStringFrom_escaped, List.append_nil]
  simp [readStringFrom, text]

end AccelControl.Json
