import AccelControl.Json.Token

/-! Passing over a value that nobody asked for.

The brackets still open are kept in a list, so values may nest to any depth. Strings and numbers
are held to a laxer rule than where they are read: a string need not be valid UTF-8 nor its
surrogates paired, and a number may be of any size, but it may not end where the text ends too
early for a digit.
-/

set_option autoImplicit false

namespace AccelControl.Json

inductive Bracket where
  | array
  | object
  deriving DecidableEq, Repr

def Bracket.close : Bracket → UInt8
  | .array => 0x5D
  | .object => 0x7D

/-- Where the skipper of a string stands: `owed` digits of a code unit are still to come. -/
inductive SkipState where
  | plain
  | escape
  | digits (owed : Nat) (wellFormed : Bool)
  deriving DecidableEq, Repr

def skipStringFrom : SkipState → Bytes → Except Fault Bytes
  | _, [] => .error .unfinished
  | .plain, b :: s =>
    if b = 0x22 then .ok s
    else if b = 0x5C then skipStringFrom .escape s
    else if b < 0x20 then .error .malformed
    else skipStringFrom .plain s
  | .escape, b :: s =>
    if (simpleEscape? b).isSome then skipStringFrom .plain s
    else if b = 0x75 then skipStringFrom (.digits 4 true) s
    else .error .malformed
  | .digits owed wellFormed, b :: s =>
    let wellFormed := wellFormed && (Text.hexDigit? (Char.ofNat b.toNat)).isSome
    if 1 < owed then skipStringFrom (.digits (owed - 1) wellFormed) s
    else if wellFormed then skipStringFrom .plain s
    else .error .malformed

def skipString : Bytes → Except Fault Bytes := skipStringFrom .plain

/-- Take the missing digit of a number for a malformed number, also at the end of the text. -/
def strictly {α : Type} : Except Fault α → Except Fault α
  | .error _ => .error .malformed
  | .ok a => .ok a

def skipNumber (s : Bytes) : Except Fault Bytes :=
  (strictly (readNumberParts s)).map (·.2)

mutual

/-- Pass over a value inside the open brackets, and over all that follows until they are closed.
The first argument bounds the number of steps; twice the length of the text suffices. -/
def skipValueFrom : Nat → List Bracket → Bytes → Except Fault Bytes
  | 0, _, _ => .error .unfinished
  | bound + 1, brackets, s =>
    match skipSpace s with
    | [] => .error .unfinished
    | b :: s =>
      if b = 0x5B then skipItemFrom bound true .array brackets s
      else if b = 0x7B then skipItemFrom bound true .object brackets s
      else
        let scalar : Except Fault Bytes :=
          if b = 0x22 then skipString s
          else if b = 0x2D ∨ isDigit b then skipNumber (b :: s)
          else (readToken (b :: s)).map (·.2)
        match scalar, brackets with
        | .error fault, _ => .error fault
        | .ok s, [] => .ok s
        | .ok s, bracket :: brackets => skipItemFrom bound false bracket brackets s

def skipItemFrom : Nat → Bool → Bracket → List Bracket → Bytes → Except Fault Bytes
  | 0, _, _, _, _ => .error .unfinished
  | bound + 1, first, bracket, brackets, s =>
    match skipSpace s with
    | [] => .error .unfinished
    | b :: s =>
      if b = bracket.close then
        match brackets with
        | [] => .ok s
        | outer :: brackets => skipItemFrom bound false outer brackets s
      else if ¬first ∧ b ≠ 0x2C then .error .malformed
      else
        let s := if first then b :: s else s
        match bracket with
        | .array => skipValueFrom bound (.array :: brackets) s
        | .object =>
          match (readQuote (skipSpace s)).bind skipString with
          | .error fault => .error fault
          | .ok s =>
            match readColon s with
            | .error fault => .error fault
            | .ok s => skipValueFrom bound (.object :: brackets) s

end

def skipValue (s : Bytes) : Except Fault Bytes :=
  skipValueFrom (2 * s.length + 2) [] s

end AccelControl.Json
