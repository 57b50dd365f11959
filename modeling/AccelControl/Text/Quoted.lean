import AccelControl.Text.Shown

/-! Quoted texts, as messages and debugging output show them.

A quoted text stands between quotation marks and holds no character that a terminal would hide:
quotation marks, backslashes and the common controls are written with a backslash, and every
other hidden character by its code point.
-/

set_option autoImplicit false

namespace AccelControl.Text

/-- A code point in braces, in lower-case hexadecimal digits without leading zeros. -/
def codePoint (c : Char) : List Char :=
  ['\\', 'u', '\x7b'] ++ Nat.toDigits 16 c.toNat ++ ['\x7d']

def quotedChar (c : Char) : List Char :=
  if c = '"' then ['\\', '"']
  else if c = '\\' then ['\\', '\\']
  else if c = '\n' then ['\\', 'n']
  else if c = '\r' then ['\\', 'r']
  else if c = '\t' then ['\\', 't']
  else if c = '\x00' then ['\\', '0']
  else if isShown c then [c]
  else codePoint c

def quoted (s : String) : String :=
  String.ofList ('"' :: s.toList.flatMap quotedChar ++ ['"'])

end AccelControl.Text
