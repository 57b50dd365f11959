/-! Characters and bytes of UTF-8.

A byte sequence is cut into characters and broken pieces, each broken piece being as long as
some character's encoding allows. Strict decoding accepts what has no broken piece; lenient
decoding writes U+FFFD for each.
-/

set_option autoImplicit false

namespace AccelControl

/-- A sequence of octets, as a connection or a file delivers it. -/
abbrev Bytes := List UInt8

namespace Utf8

def encode (chars : List Char) : Bytes :=
  chars.flatMap String.utf8EncodeChar

@[simp] theorem encode_nil : encode [] = [] := rfl

@[simp] theorem encode_cons (c : Char) (chars : List Char) :
    encode (c :: chars) = String.utf8EncodeChar c ++ encode chars := rfl

theorem encode_append (first rest : List Char) :
    encode (first ++ rest) = encode first ++ encode rest := by
  simp [encode]

/-- A character of which the leading bytes have been seen: how many bytes are owed, the range of
the next one, and the bits collected so far. -/
structure Begun where
  owed : Nat
  low : UInt8
  high : UInt8
  bits : Nat
  deriving DecidableEq, Repr

inductive Lead where
  | whole (c : Char)
  | begun (b : Begun)
  | broken
  deriving DecidableEq, Repr

/-- Classify a byte that starts a character. The narrowed ranges exclude overlong forms,
surrogates and code points above U+10FFFF. -/
def lead (b : UInt8) : Lead :=
  if b < 0x80 then .whole (Char.ofNat b.toNat)
  else if b < 0xC2 then .broken
  else if b < 0xE0 then .begun ⟨1, 0x80, 0xBF, b.toNat - 0xC0⟩
  else if b = 0xE0 then .begun ⟨2, 0xA0, 0xBF, 0⟩
  else if b = 0xED then .begun ⟨2, 0x80, 0x9F, 0xD⟩
  else if b < 0xF0 then .begun ⟨2, 0x80, 0xBF, b.toNat - 0xE0⟩
  else if b = 0xF0 then .begun ⟨3, 0x90, 0xBF, 0⟩
  else if b < 0xF4 then .begun ⟨3, 0x80, 0xBF, b.toNat - 0xF0⟩
  else if b = 0xF4 then .begun ⟨3, 0x80, 0x8F, 4⟩
  else .broken

/-- The pieces of a byte sequence, last first, on top of `done`: characters, and `none` for each
broken piece. A byte that cannot continue a begun character ends it as broken and starts anew. -/
def piecesFrom : Option Begun → List (Option Char) → Bytes → List (Option Char)
  | none, done, [] => done
  | some _, done, [] => none :: done
  | none, done, b :: rest =>
    match lead b with
    | .whole c => piecesFrom none (some c :: done) rest
    | .begun p => piecesFrom (some p) done rest
    | .broken => piecesFrom none (none :: done) rest
  | some p, done, b :: rest =>
    if p.low ≤ b ∧ b ≤ p.high then
      let bits := p.bits * 64 + (b.toNat - 0x80)
      if p.owed ≤ 1 then piecesFrom none (some (Char.ofNat bits) :: done) rest
      else piecesFrom (some ⟨p.owed - 1, 0x80, 0xBF, bits⟩) done rest
    else
      match lead b with
      | .whole c => piecesFrom none (some c :: none :: done) rest
      | .begun p => piecesFrom (some p) (none :: done) rest
      | .broken => piecesFrom none (none :: none :: done) rest

def pieces (bytes : Bytes) : List (Option Char) :=
  (piecesFrom none [] bytes).reverse

/-- The characters of a byte sequence in which no piece is broken. -/
def decode? (bytes : Bytes) : Option (List Char) :=
  (pieces bytes).mapM id

/-- The characters of any byte sequence, with U+FFFD for each broken piece. -/
def decodeLenient (bytes : Bytes) : List Char :=
  (pieces bytes).map (·.getD '\uFFFD')

def ofString (s : String) : Bytes :=
  encode s.toList

/-- The text of a byte sequence in which no piece is broken. -/
def string? (bytes : Bytes) : Option String :=
  (decode? bytes).map String.ofList

def stringLenient (bytes : Bytes) : String :=
  String.ofList (decodeLenient bytes)

end Utf8

end AccelControl
