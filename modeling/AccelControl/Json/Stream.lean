import AccelControl.Json.ValueReader

/-! Taking JSON values off a buffer that fills as bytes arrive.

The other side does not mark where a value ends. A value is complete as soon as the bytes received
so far hold all of it.
-/

set_option autoImplicit false

namespace AccelControl.Json

inductive Taken where
  /-- A complete value, and the bytes behind it. -/
  | value (v : Json) (rest : Bytes)
  /-- The beginning of a value, or nothing but white space. -/
  | incomplete
  /-- Bytes that no value starts with. -/
  | malformed
  deriving Repr

/-- Whether the end of a value that starts with this byte is marked by the value itself. -/
def isDelimiting (b : UInt8) : Bool := b == 0x22 || b == 0x5B || b == 0x7B

/-- Whether a number or a word may be followed by this byte in a stream of values. -/
def mayFollow (b : UInt8) : Bool :=
  isSpace b || b == 0x22 || b == 0x5B || b == 0x5D || b == 0x7B || b == 0x7D || b == 0x2C
    || b == 0x3A

/-- Take the first value off a buffer. A number or a word may end where the buffer ends. -/
def take (buffer : Bytes) : Taken :=
  match skipSpace buffer with
  | [] => .incomplete
  | b :: s =>
    match readValue (b :: s) with
    | .error .unfinished => .incomplete
    | .error _ => .malformed
    | .ok (v, rest) =>
      if isDelimiting b || rest.head?.all mayFollow then .value v rest else .malformed

/-- Append each feed to a buffer and take one value: what was found, and the buffer afterwards. -/
def takeEach (buffer : Bytes) : List Bytes → List (Taken × Bytes)
  | [] => []
  | feed :: feeds =>
    let buffer := buffer ++ feed
    let taken := take buffer
    let left :=
      match taken with
      | .value _ rest => rest
      | .incomplete | .malformed => buffer
    (taken, left) :: takeEach left feeds

end AccelControl.Json
