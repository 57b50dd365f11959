import AccelControl.Text.Decimal
import AccelControl.Toml.Basic

/-! The smallest parts of TOML text: white space, comments, strings and names.

Every reader takes what it reads from the front of a text and returns the rest; it returns nothing
if the text is malformed.
-/

set_option autoImplicit false

namespace AccelControl.Toml

abbrev Reader (α : Type) := List Char → Option (α × List Char)

def isSpace (c : Char) : Bool := c == ' ' || c == '\t'

def skipSpace (s : List Char) : List Char := s.dropWhile isSpace

/-- Whether a character other than a line break may stand in a comment or a literal string. -/
def isText (c : Char) : Bool := c == '\t' || (' ' ≤ c && c ≠ '\x7f')

def readBreak? : List Char → Option (List Char)
  | '\n' :: s => some s
  | '\r' :: '\n' :: s => some s
  | _ => none

def skipComment : List Char → List Char
  | '#' :: s => s.dropWhile isText
  | s => s

/-- Read the end of a line: blanks, a comment, and a line break or the end of the text. -/
def readLineEnd? (s : List Char) : Option (List Char) :=
  match skipComment (skipSpace s) with
  | [] => some []
  | s => readBreak? s

/-- The text behind any blanks, comments and line breaks. `comment` tells whether a comment has been
begun on the line; the end of the line ends it. -/
def skipLinesFrom (comment : Bool) : List Char → List Char
  | [] => []
  | '\n' :: s => skipLinesFrom false s
  | '\r' :: '\n' :: s => skipLinesFrom false s
  | c :: s =>
    if comment then (if isText c then skipLinesFrom true s else c :: s)
    else if isSpace c then skipLinesFrom false s
    else if c = '#' then skipLinesFrom true s
    else c :: s

def skipLines (s : List Char) : List Char := skipLinesFrom false s

inductive StringState where
  | plain
  | escape
  /-- Inside the digits of a code point, with those read so far as a number. -/
  | digits (owed : Nat) (value : Nat)
  deriving DecidableEq, Repr

def simpleEscape? (c : Char) : Option Char :=
  if c = '"' ∨ c = '\\' then some c
  else if c = 'b' then some '\x08'
  else if c = 't' then some '\t'
  else if c = 'n' then some '\n'
  else if c = 'f' then some '\x0c'
  else if c = 'r' then some '\r'
  else none

/-- The character of a code point, surrogates excluded. -/
def charOf? (n : Nat) : Option Char :=
  if n.isValidChar then some (Char.ofNat n) else none

/-- What a character inside an escape leads to: the next state, and the character it completes. -/
def stepEscape? : StringState → Char → Option (StringState × Option Char)
  | .plain, _ => none
  | .escape, c =>
    match simpleEscape? c with
    | some e => some (.plain, some e)
    | none =>
      if c = 'u' then some (.digits 4 0, none)
      else if c = 'U' then some (.digits 8 0, none)
      else none
  | .digits owed value, c => do
    let digit ← Text.hexDigit? c
    let value := value * 16 + digit
    if 1 < owed then some (.digits (owed - 1) value, none)
    else
      let c ← charOf? value
      some (.plain, some c)

def readBasicFrom : StringState → List Char → Reader String
  | _, _, [] => none
  | .plain, done, c :: s =>
    if c = '"' then some (String.ofList done.reverse, s)
    else if c = '\\' then readBasicFrom .escape done s
    else if isText c then readBasicFrom .plain (c :: done) s
    else none
  | state, done, c :: s =>
    match stepEscape? state c with
    | none => none
    | some (state, none) => readBasicFrom state done s
    | some (state, some c) => readBasicFrom state (c :: done) s

def readLiteral (s : List Char) : Option (String × List Char) :=
  let (text, rest) := (s.takeWhile fun c => c != '\'' && isText c,
    s.dropWhile fun c => c != '\'' && isText c)
  match rest with
  | '\'' :: rest => some (String.ofList text, rest)
  | _ => none

/-- Read the end of a string of several lines: at least three quotation marks. Up to two more in
front of them belong to the string. -/
def readClosing? (quote : Char) (s : List Char) : Option (List Char × List Char) :=
  let quotes := s.takeWhile (· == quote)
  if quotes.length < 3 then none
  else
    let inside := min (quotes.length - 3) 2
    some (List.replicate inside quote, s.drop (inside + 3))

/-- A line break right behind the opening quotation marks does not belong to the string. -/
def dropFirstBreak (s : List Char) : List Char := (readBreak? s).getD s

/-- Read a string of several lines without escapes, behind its opening apostrophes. Line breaks
count as line feeds. -/
def readLiteralLines : Nat → List Char → Reader String
  | 0, _, _ => none
  | bound + 1, done, s =>
    match readClosing? '\'' s with
    | some (inside, rest) => some (String.ofList (done.reverse ++ inside), rest)
    | none =>
      match readBreak? s, s with
      | some rest, _ => readLiteralLines bound ('\n' :: done) rest
      | none, c :: rest => if isText c then readLiteralLines bound (c :: done) rest else none
      | none, [] => none

def skipBlankLines : List Char → List Char
  | '\n' :: s => skipBlankLines s
  | '\r' :: '\n' :: s => skipBlankLines s
  | c :: s => if isSpace c then skipBlankLines s else c :: s
  | [] => []

/-- Read a string of several lines behind its opening quotation marks. A backslash at the end of a
line takes away the line break and the blanks and empty lines behind it. -/
def readBasicLines : Nat → StringState → List Char → Reader String
  | 0, _, _, _ => none
  | bound + 1, .plain, done, s =>
    match readClosing? '"' s with
    | some (inside, rest) => some (String.ofList (done.reverse ++ inside), rest)
    | none =>
      match readBreak? s, s with
      | some rest, _ => readBasicLines bound .plain ('\n' :: done) rest
      | none, [] => none
      | none, '\\' :: rest =>
        match readBreak? (skipSpace rest) with
        | some rest => readBasicLines bound .plain done (skipBlankLines rest)
        | none => readBasicLines bound .escape done rest
      | none, c :: rest => if isText c then readBasicLines bound .plain (c :: done) rest else none
  | _ + 1, _, _, [] => none
  | bound + 1, state, done, c :: s =>
    match stepEscape? state c with
    | none => none
    | some (state, none) => readBasicLines bound state done s
    | some (state, some c) => readBasicLines bound state (c :: done) s

def readQuoted : Reader String
  | '"' :: '"' :: '"' :: s => readBasicLines (s.length + 1) .plain [] (dropFirstBreak s)
  | '"' :: s => readBasicFrom .plain [] s
  | _ => none

def readUnescaped : Reader String
  | '\'' :: '\'' :: '\'' :: s => readLiteralLines (s.length + 1) [] (dropFirstBreak s)
  | '\'' :: s => readLiteral s
  | _ => none

def isBare (c : Char) : Bool := c.isAlphanum || c == '-' || c == '_'

def readName : Reader String
  | '"' :: s => readBasicFrom .plain [] s
  | '\'' :: s => readLiteral s
  | s =>
    let name := s.takeWhile isBare
    if name.isEmpty then none else some (String.ofList name, s.dropWhile isBare)

/-- How many names a dotted name may have, and how deep arrays and inline tables may nest, plus
one. -/
def depthLimit : Nat := 80

/-- Read names with dots between them; blanks may stand around each. -/
def readDotted : Nat → Reader (List String)
  | 0, _ => none
  | bound + 1, s =>
    match readName (skipSpace s) with
    | none => none
    | some (name, s) =>
      match skipSpace s with
      | '.' :: s => (readDotted bound s).map fun (names, s) => (name :: names, s)
      | s => some ([name], s)

def readKey (s : List Char) : Option (List String × List Char) :=
  readDotted (depthLimit - 1) s

end AccelControl.Toml
