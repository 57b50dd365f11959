import AccelControl.Toml.ValueReader

/-! TOML documents: entries and headers, line by line.

The entries behind a header are collected and join the document when the next header comes. A
table may be given one header of its own; a table that only headers of inner tables have implied
may still get one.
-/

set_option autoImplicit false

namespace AccelControl.Toml

namespace Entries

variable {α : Type}

def find? (name : String) (entries : Entries) : Option Entry :=
  (List.find? (fun entry => entry.1 == name) entries).map (·.2)

def replace (name : String) (entry : Entry) (entries : Entries) : Entries :=
  entries.map fun old => if old.1 = name then (name, entry) else old

def remove (name : String) (entries : Entries) : Entries :=
  entries.filter fun entry => entry.1 != name

/-- Change the entries of the table at a path, knowing the table's origin, and tell something about
it. Tables missing on the way are made, with the origin `made`. The last table of several is
entered. A dotted name does not enter a table that has a header. -/
def update? (made : Origin) (change : Origin → Entries → Option (Entries × α)) :
    (path : List String) → Origin → Entries → Option (Entries × α)
  | [], origin, entries => change origin entries
  | name :: path, _, entries =>
    match find? name entries with
    | none =>
      (update? made change path made []).map fun (inner, told) =>
        (entries ++ [(name, .table made inner)], told)
    | some (.value _) => none
    | some (.table origin inner) =>
      if made = .dotted ∧ origin = .header then none
      else
        (update? made change path origin inner).map fun (inner, told) =>
          (replace name (.table origin inner) entries, told)
    | some (.tables items) =>
      items.getLast?.bind fun last =>
        (update? made change path .header last).map fun (last, told) =>
          (replace name (.tables (items.dropLast ++ [last])) entries, told)

/-- Add a value under a dotted name. Dots extend only tables that dots have made. -/
def addValue? (path : List String) (name : String) (value : Value) (entries : Entries) :
    Option Entries :=
  let change (origin : Origin) (inner : Entries) : Option (Entries × Unit) :=
    if (origin == .dotted) == path.isEmpty then none
    else if (find? name inner).isSome then none
    else some (inner ++ [(name, .value value)], ())
  (update? .dotted change path .header entries).map (·.1)

/-- Take the table that a header names out of a document, with the entries it has already: those of
a table that was only implied. -/
def takeTable? (path : List String) (name : String) (entries : Entries) :
    Option (Entries × Entries) :=
  let change (_ : Origin) (inner : Entries) : Option (Entries × Entries) :=
    match find? name inner with
    | none => some (inner, [])
    | some (.table .implied taken) => some (remove name inner, taken)
    | some _ => none
  update? .implied change path .header entries

def putTable? (path : List String) (name : String) (table entries : Entries) : Option Entries :=
  let change (_ : Origin) (inner : Entries) : Option (Entries × Unit) :=
    match find? name inner with
    | none => some (inner ++ [(name, .table .header table)], ())
    | some _ => none
  (update? .implied change path .header entries).map (·.1)

def pushTable? (path : List String) (name : String) (table entries : Entries) : Option Entries :=
  let change (_ : Origin) (inner : Entries) : Option (Entries × Unit) :=
    match find? name inner with
    | none => some (inner ++ [(name, .tables [table])], ())
    | some (.tables items) => some (replace name (.tables (items ++ [table])) inner, ())
    | some _ => none
  (update? .implied change path .header entries).map (·.1)

end Entries

inductive Place where
  /-- The document itself, before the first header. -/
  | document
  | table (path : List String) (name : String)
  /-- Another table under a header in double brackets. -/
  | item (path : List String) (name : String)
  deriving DecidableEq, Repr

/-- A document while it is being read: the tables that are finished, and the open one. -/
structure Progress where
  finished : Entries
  place : Place
  entries : Entries

namespace Progress

def start : Progress := ⟨[], .document, []⟩

def finish? (p : Progress) : Option Entries :=
  match p.place with
  | .document => some p.entries
  | .table path name => Entries.putTable? path name p.entries p.finished
  | .item path name => Entries.pushTable? path name p.entries p.finished

def openTable? (p : Progress) (path : List String) (name : String) : Option Progress := do
  let finished ← p.finish?
  let (finished, entries) ← Entries.takeTable? path name finished
  some ⟨finished, .table path name, entries⟩

def openItem? (p : Progress) (path : List String) (name : String) : Option Progress := do
  let finished ← p.finish?
  some ⟨finished, .item path name, []⟩

def addValue? (p : Progress) (path : List String) (name : String) (value : Value) :
    Option Progress :=
  (Entries.addValue? path name value p.entries).map fun entries => { p with entries }

end Progress

def splitKey (names : List String) : Option (List String × String) :=
  names.getLast?.map fun name => (names.dropLast, name)

def readHeader (closing : List Char) (s : List Char) :
    Option ((List String × String) × List Char) := do
  let (names, s) ← readKey s
  let key ← splitKey names
  if closing.isPrefixOf s then
    let s ← readLineEnd? (s.drop closing.length)
    some (key, s)
  else none

def readEntry (s : List Char) : Option (((List String × String) × Value) × List Char) := do
  let (names, s) ← readKey s
  let key ← splitKey names
  let s ← readEquals s
  let (value, s) ← readValue s
  let s ← readLineEnd? s
  some ((key, value), s)

/-- Read lines to the end of the text, of which there are at most `bound`. -/
def readLines : Nat → Progress → List Char → Option Entries
  | 0, _, _ => none
  | bound + 1, progress, s =>
    match skipSpace s with
    | [] => progress.finish?
    | '[' :: '[' :: s => do
      let ((path, name), s) ← readHeader [']', ']'] s
      let progress ← progress.openItem? path name
      readLines bound progress s
    | '[' :: s => do
      let ((path, name), s) ← readHeader [']'] s
      let progress ← progress.openTable? path name
      readLines bound progress s
    | c :: s =>
      if c = '#' ∨ c = '\n' ∨ c = '\r' then
        match readLineEnd? (c :: s) with
        | none => none
        | some s => readLines bound progress s
      else do
        let (((path, name), value), s) ← readEntry (c :: s)
        let progress ← progress.addValue? path name value
        readLines bound progress s

/-- The entries of a document, which may start with a byte order mark. -/
def parse (text : String) : Option Entries :=
  let s := match text.toList with
    | '\uFEFF' :: s => s
    | s => s
  readLines (s.length + 1) .start s

end AccelControl.Toml
