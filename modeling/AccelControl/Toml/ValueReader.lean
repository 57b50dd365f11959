import AccelControl.Toml.Moment
import AccelControl.Toml.Number

/-! The values of TOML text.

An inline table may use dotted names, but a table that is complete, or that another entry made,
cannot be extended.
-/

set_option autoImplicit false

namespace AccelControl.Toml

/-- A table inside the braces of an inline table, while they are open. Tables that dotted names
make stay open; values are closed. -/
inductive Draft where
  | value (v : Value)
  | dotted (entries : List (String × Draft))

def Draft.find? (name : String) (entries : List (String × Draft)) : Option Draft :=
  (entries.find? (fun entry => entry.1 == name)).map (·.2)

def Draft.replace (name : String) (draft : Draft) (entries : List (String × Draft)) :
    List (String × Draft) :=
  entries.map fun entry => if entry.1 = name then (name, draft) else entry

def Draft.add? (value : Value) : List String → List (String × Draft) →
    Option (List (String × Draft))
  | [], _ => none
  | [name], entries =>
    match find? name entries with
    | none => some (entries ++ [(name, .value value)])
    | some _ => none
  | name :: names, entries =>
    match find? name entries with
    | none => (add? value names []).map fun inner => entries ++ [(name, .dotted inner)]
    | some (.dotted inner) => (add? value names inner).map fun inner =>
        replace name (.dotted inner) entries
    | some (.value _) => none

mutual

def Draft.close : Draft → Value
  | .value v => v
  | .dotted entries => .table (closeEntries entries)

def Draft.closeEntries : List (String × Draft) → List (String × Value)
  | [] => []
  | (name, draft) :: rest => (name, draft.close) :: closeEntries rest

end

/-- Read the items of an array behind its opening bracket. A comma may stand behind the last. -/
def readItems (item : Reader Value) : Nat → List Value → Reader (List Value)
  | 0, _, _ => none
  | bound + 1, items, s =>
    match skipLines s with
    | ']' :: s => some (items.reverse, s)
    | s =>
      match item s with
      | none => none
      | some (value, s) =>
        match skipLines s with
        | ',' :: s => readItems item bound (value :: items) s
        | ']' :: s => some ((value :: items).reverse, s)
        | _ => none

def readEquals (s : List Char) : Option (List Char) :=
  match skipSpace s with
  | '=' :: s => some (skipSpace s)
  | _ => none

def readPairs (item : Reader Value) : Nat → List (String × Draft) → Reader (List (String × Draft))
  | 0, _, _ => none
  | bound + 1, entries, s => do
    let (names, s) ← readKey s
    let s ← readEquals s
    let (value, s) ← item s
    let entries ← Draft.add? value names entries
    match skipSpace s with
    | ',' :: s => readPairs item bound entries s
    | '}' :: s => some (entries, s)
    | _ => none

def readInline (item : Reader Value) (s : List Char) : Option (Value × List Char) :=
  match skipSpace s with
  | '}' :: s => some (.table [], s)
  | s => (readPairs item (s.length + 1) [] s).map fun (entries, s) =>
      (.table (Draft.closeEntries entries), s)

/-- Read a value whose items, if it may have any, are read by `item`. -/
def readValueWith (item : Option (Reader Value)) : Reader Value
  | [] => none
  | c :: s =>
    if c = '"' then (readQuoted (c :: s)).map fun (text, s) => (.string text, s)
    else if c = '\'' then (readUnescaped (c :: s)).map fun (text, s) => (.string text, s)
    else if c = '[' then
      item.bind fun item => (readItems item (s.length + 1) [] s).map fun (items, s) =>
        (.array items, s)
    else if c = '\x7b' then item.bind fun item => readInline item s
    else
      match c :: s with
      | 't' :: 'r' :: 'u' :: 'e' :: s => some (.bool true, s)
      | 'f' :: 'a' :: 'l' :: 's' :: 'e' :: s => some (.bool false, s)
      | s => (readMoment s).or (readNumber s)

def readValueFrom : (depth : Nat) → Reader Value
  | 0 => readValueWith none
  | depth + 1 => readValueWith (some (readValueFrom depth))

def readValue : Reader Value := readValueFrom (depthLimit - 1)

end AccelControl.Toml
