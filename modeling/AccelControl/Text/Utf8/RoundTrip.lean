import AccelControl.Text.Utf8

/-! Decoding what was encoded.

The encoding of a character is one piece, whatever stands in front of it or behind it. So the
pieces of encoded characters are the characters, and both ways of decoding give them back.
-/

set_option autoImplicit false

namespace AccelControl.Utf8

/-- A number below 256 survives as a byte. -/
theorem toNat_byte {n : Nat} (small : n < 256) : (UInt8.ofNat n).toNat = n := by
  simp only [UInt8.toNat_ofNat']
  omega

/-- What a byte at the start of a character says, by the byte's number. -/
theorem lead_ofNat {n : Nat} (small : n < 256) : lead (UInt8.ofNat n) =
    if n < 0x80 then .whole (Char.ofNat n)
    else if n < 0xC2 then .broken
    else if n < 0xE0 then .begun ⟨1, 0x80, 0xBF, n - 0xC0⟩
    else if n = 0xE0 then .begun ⟨2, 0xA0, 0xBF, 0⟩
    else if n = 0xED then .begun ⟨2, 0x80, 0x9F, 0xD⟩
    else if n < 0xF0 then .begun ⟨2, 0x80, 0xBF, n - 0xE0⟩
    else if n = 0xF0 then .begun ⟨3, 0x90, 0xBF, 0⟩
    else if n < 0xF4 then .begun ⟨3, 0x80, 0xBF, n - 0xF0⟩
    else if n = 0xF4 then .begun ⟨3, 0x80, 0x8F, 4⟩
    else .broken := by
  simp only [lead, UInt8.lt_iff_toNat_lt, ← UInt8.toNat_inj, toNat_byte small]
  rfl

/-- A byte in the expected range goes on with a begun character. -/
theorem piecesFrom_begun {p : Begun} {n : Nat} (small : n < 256) (low : p.low.toNat ≤ n)
    (high : n ≤ p.high.toNat) (done : List (Option Char)) (rest : Bytes) :
    piecesFrom (some p) done (UInt8.ofNat n :: rest) =
      if p.owed ≤ 1 then piecesFrom none (some (Char.ofNat (p.bits * 64 + (n - 0x80))) :: done) rest
      else piecesFrom (some ⟨p.owed - 1, 0x80, 0xBF, p.bits * 64 + (n - 0x80)⟩) done rest := by
  have inside : p.low ≤ UInt8.ofNat n ∧ UInt8.ofNat n ≤ p.high := by
    simp only [UInt8.le_iff_toNat_le, toNat_byte small]
    exact ⟨low, high⟩
  simp only [piecesFrom, inside, toNat_byte small]
  simp

theorem piecesFrom_ofNat (n : Nat) (done : List (Option Char)) (rest : Bytes) :
    piecesFrom none done (UInt8.ofNat n :: rest) = match lead (UInt8.ofNat n) with
      | .whole c => piecesFrom none (some c :: done) rest
      | .begun p => piecesFrom (some p) done rest
      | .broken => piecesFrom none (none :: done) rest := by
  cases found : lead (UInt8.ofNat n) <;> simp [piecesFrom, found]

section begun

variable {low high : UInt8} {bits k m n v : Nat} (done : List (Option Char)) (rest : Bytes)

theorem piecesFrom_last (small : n < 256) (least : low.toNat ≤ n) (most : n ≤ high.toNat)
    (value : bits * 64 + (n - 0x80) = v) :
    piecesFrom (some ⟨1, low, high, bits⟩) done (UInt8.ofNat n :: rest)
      = piecesFrom none (some (Char.ofNat v) :: done) rest := by
  rw [piecesFrom_begun small least most, if_pos (Nat.le_refl 1), value]

theorem piecesFrom_lastTwo (small : m < 256) (least : low.toNat ≤ m) (most : m ≤ high.toNat)
    (least' : 0x80 ≤ n) (most' : n ≤ 0xBF)
    (value : (bits * 64 + (m - 0x80)) * 64 + (n - 0x80) = v) :
    piecesFrom (some ⟨2, low, high, bits⟩) done (UInt8.ofNat m :: UInt8.ofNat n :: rest)
      = piecesFrom none (some (Char.ofNat v) :: done) rest := by
  rw [piecesFrom_begun small least most, if_neg (Nat.not_le.2 (by simp))]
  exact piecesFrom_last done rest (by omega) least' most' value

theorem piecesFrom_lastThree (small : k < 256) (least : low.toNat ≤ k) (most : k ≤ high.toNat)
    (least' : 0x80 ≤ m) (most' : m ≤ 0xBF) (least'' : 0x80 ≤ n) (most'' : n ≤ 0xBF)
    (value : ((bits * 64 + (k - 0x80)) * 64 + (m - 0x80)) * 64 + (n - 0x80) = v) :
    piecesFrom (some ⟨3, low, high, bits⟩) done
        (UInt8.ofNat k :: UInt8.ofNat m :: UInt8.ofNat n :: rest)
      = piecesFrom none (some (Char.ofNat v) :: done) rest := by
  rw [piecesFrom_begun small least most, if_neg (Nat.not_le.2 (by simp))]
  exact piecesFrom_lastTwo done rest (by omega) least' most' least'' most'' value

end begun

/-- The encoding of a character is one piece. -/
theorem piecesFrom_utf8EncodeChar (c : Char) (done : List (Option Char)) (rest : Bytes) :
    piecesFrom none done (String.utf8EncodeChar c ++ rest)
      = piecesFrom none (some c :: done) rest := by
  have whole : Char.ofNat c.val.toNat = c := Char.ofNat_toNat c
  have valid : c.val.toNat.isValidChar := c.valid
  simp only [Nat.isValidChar] at valid
  simp only [String.utf8EncodeChar]
  generalize c.val.toNat = v at whole valid
  subst whole
  -- The byte in front tells how many follow, and within which bounds the next one lies.
  split
  · rw [List.singleton_append, piecesFrom_ofNat, lead_ofNat (by omega), if_pos (by omega)]
  split
  · rw [List.cons_append, List.singleton_append, piecesFrom_ofNat, lead_ofNat (by omega),
      if_neg (by omega), if_neg (by omega), if_pos (by omega)]
    exact piecesFrom_last done rest (by omega) (by simp) (by simp; omega) (by omega)
  split
  · simp only [List.cons_append, List.nil_append]
    rw [piecesFrom_ofNat, lead_ofNat (by omega), if_neg (by omega), if_neg (by omega),
      if_neg (by omega)]
    by_cases e0 : v / 4096 % 16 + 224 = 0xE0
    · rw [if_pos e0]
      exact piecesFrom_lastTwo done rest (by omega) (by simp; omega) (by simp; omega) (by omega)
        (by omega) (by omega)
    rw [if_neg e0]
    by_cases ed : v / 4096 % 16 + 224 = 0xED
    · rw [if_pos ed]
      exact piecesFrom_lastTwo done rest (by omega) (by simp) (by simp; omega) (by omega)
        (by omega) (by omega)
    · rw [if_neg ed, if_pos (by omega)]
      exact piecesFrom_lastTwo done rest (by omega) (by simp) (by simp; omega) (by omega)
        (by omega) (by omega)
  · simp only [List.cons_append, List.nil_append]
    rw [piecesFrom_ofNat, lead_ofNat (by omega), if_neg (by omega), if_neg (by omega),
      if_neg (by omega), if_neg (by omega), if_neg (by omega), if_neg (by omega)]
    by_cases f0 : v / 262144 % 8 + 240 = 0xF0
    · rw [if_pos f0]
      exact piecesFrom_lastThree done rest (by omega) (by simp; omega) (by simp; omega) (by omega)
        (by omega) (by omega) (by omega) (by omega)
    rw [if_neg f0]
    by_cases f4 : v / 262144 % 8 + 240 = 0xF4
    · rw [if_neg (by omega), if_pos f4]
      exact piecesFrom_lastThree done rest (by omega) (by simp) (by simp; omega) (by omega)
        (by omega) (by omega) (by omega) (by omega)
    · rw [if_pos (by omega)]
      exact piecesFrom_lastThree done rest (by omega) (by simp) (by simp; omega) (by omega)
        (by omega) (by omega) (by omega) (by omega)

theorem piecesFrom_encode (chars : List Char) (done : List (Option Char)) (rest : Bytes) :
    piecesFrom none done (encode chars ++ rest)
      = piecesFrom none ((chars.map some).reverse ++ done) rest := by
  induction chars generalizing done with
  | nil => rfl
  | cons c chars ih =>
    rw [encode_cons, List.append_assoc, piecesFrom_utf8EncodeChar, ih]
    simp

theorem pieces_encode (chars : List Char) : pieces (encode chars) = chars.map some := by
  have whole := piecesFrom_encode chars [] []
  rw [List.append_nil, List.append_nil] at whole
  rw [pieces, whole, piecesFrom, List.reverse_reverse]

theorem decode?_encode (chars : List Char) : decode? (encode chars) = some chars := by
  rw [decode?, pieces_encode]
  induction chars with
  | nil => rfl
  | cons c chars ih => simp [List.mapM_cons, ih]

theorem string?_ofString (s : String) : string? (ofString s) = some s := by
  simp [string?, ofString, decode?_encode]

end AccelControl.Utf8
