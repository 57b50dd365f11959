import AccelControl.Json.Reader
import AccelControl.Text.Decimal

/-! Reading the strings of JSON text.

Inside a string the reader is in one of five states, and every byte leads from one to another.
The bytes of the string are collected as they come and checked at the closing quotation mark.
-/

set_option autoImplicit false

namespace AccelControl.Json

inductive StringState where
  /-- Between characters. -/
  | plain
  /-- Behind a backslash. -/
  | escape
  /-- Inside the four digits of a code unit, of which some are read, last first. With a leading
  surrogate the digits must make its partner. -/
  | digits (read : List UInt8) (leading : Option Nat)
  /-- Behind a leading surrogate, which needs another escape. -/
  | paired (leading : Nat)
  /-- Behind the backslash of that escape. -/
  | pairedEscape (leading : Nat)
  deriving DecidableEq, Repr

def simpleEscape? (b : UInt8) : Option UInt8 :=
  if b = 0x22 ∨ b = 0x5C ∨ b = 0x2F then some b
  else if b = 0x62 then some 0x08
  else if b = 0x66 then some 0x0C
  else if b = 0x6E then some 0x0A
  else if b = 0x72 then some 0x0D
  else if b = 0x74 then some 0x09
  else none

def codeUnit? (digits : List UInt8) : Option Nat :=
  (digits.mapM fun b => Text.hexDigit? (Char.ofNat b.toNat)).map (Text.digitsFrom 16 0)

def isLeadingSurrogate (n : Nat) : Bool := 0xD800 ≤ n && n ≤ 0xDBFF

def isTrailingSurrogate (n : Nat) : Bool := 0xDC00 ≤ n && n ≤ 0xDFFF

def pairedCodePoint (leading trailing : Nat) : Nat :=
  0x10000 + (leading - 0xD800) * 0x400 + (trailing - 0xDC00)

/-- What a complete code unit leads to: the next state and the bytes it adds, if any. -/
def afterCodeUnit (leading : Option Nat) (unit : Nat) : Option (StringState × Bytes) :=
  match leading with
  | none =>
    if isTrailingSurrogate unit then none
    else if isLeadingSurrogate unit then some (.paired unit, [])
    else some (.plain, String.utf8EncodeChar (Char.ofNat unit))
  | some first =>
    if isTrailingSurrogate unit then
      some (.plain, String.utf8EncodeChar (Char.ofNat (pairedCodePoint first unit)))
    else none

/-- Read a string behind its opening quotation mark, with the bytes read before, last first. -/
def readStringFrom : StringState → Bytes → Reader String
  | _, _, [] => .error .unfinished
  | .plain, done, b :: s =>
    if b = 0x22 then
      match Utf8.string? done.reverse with
      | some text => .ok (text, s)
      | none => .error .malformed
    else if b = 0x5C then readStringFrom .escape done s
    else if b < 0x20 then .error .malformed
    else readStringFrom .plain (b :: done) s
  | .escape, done, b :: s =>
    match simpleEscape? b with
    | some byte => readStringFrom .plain (byte :: done) s
    | none => if b = 0x75 then readStringFrom (.digits [] none) done s else .error .malformed
  | .digits read leading, done, b :: s =>
    if read.length < 3 then readStringFrom (.digits (b :: read) leading) done s
    else
      match (codeUnit? (b :: read).reverse).bind (afterCodeUnit leading) with
      | some (state, bytes) => readStringFrom state (bytes.reverse ++ done) s
      | none => .error .malformed
  | .paired leading, done, b :: s =>
    if b = 0x5C then readStringFrom (.pairedEscape leading) done s else .error .malformed
  | .pairedEscape leading, done, b :: s =>
    if b = 0x75 then readStringFrom (.digits [] (some leading)) done s else .error .malformed

def readString : Reader String := readStringFrom .plain []

end AccelControl.Json
