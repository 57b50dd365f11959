import AccelControl.IoError
import AccelControl.Text.Utf8

/-! A tree of files and directories, and paths in it.

A path is walked name by name from the root or from the working directory, as the system does it.
-/

set_option autoImplicit false

namespace AccelControl

/-- A file, a directory with its entries, or something that can be neither read nor entered. -/
inductive FileNode where
  | file (content : Bytes)
  | directory (entries : List (String × FileNode))
  | device
  deriving Repr

/-- A place in a tree: a node, and the directories above it from the nearest on. -/
structure FilePlace where
  node : FileNode
  above : List FileNode
  deriving Repr

namespace FileNode

def entry? (node : FileNode) (name : String) : Option FileNode :=
  match node with
  | .directory entries => (entries.find? (fun entry => entry.1 == name)).map (·.2)
  | _ => none

def isDirectory : FileNode → Bool
  | .directory _ => true
  | _ => false

/-- Put a node into a tree, under the names of directories that exist. -/
def put (node : FileNode) : List String → FileNode → FileNode
  | [], _ => node
  | name :: names, .directory entries =>
    if entries.any (fun entry => entry.1 == name) then
      .directory (entries.map fun entry =>
        if entry.1 = name then (name, put node names entry.2) else entry)
    else if names.isEmpty then .directory (entries ++ [(name, node)])
    else .directory entries
  | _ :: _, other => other

end FileNode

/-- The names of a path, blanks between slashes included. -/
def pathNames (path : String) : List String :=
  (path.toList.splitOn '/').map String.ofList

/-- The longest name and the longest path that the system takes, in bytes, its own mark at the end
included. -/
def longestName : Nat := 255

def longestPath : Nat := 4096

namespace FilePlace

/-- Walk to a name inside a directory. The name `.` and an empty one stay there. -/
def enter (place : FilePlace) (name : String) : Except IoError FilePlace :=
  if ¬place.node.isDirectory then .error .notADirectory
  else if name = "" ∨ name = "." then .ok place
  else if name = ".." then
    match place.above with
    | [] => .ok place
    | node :: above => .ok ⟨node, above⟩
  else if longestName < (Utf8.ofString name).length then .error .nameTooLong
  else
    match place.node.entry? name with
    | some node => .ok ⟨node, place.node :: place.above⟩
    | none => .error .notFound

def walk (place : FilePlace) (names : List String) : Except IoError FilePlace :=
  names.foldlM enter place

end FilePlace

structure FileSystem where
  root : FileNode
  working : List String
  deriving Repr

namespace FileSystem

def workingPlace (fs : FileSystem) : Except IoError FilePlace :=
  FilePlace.walk ⟨fs.root, []⟩ fs.working

def resolve (fs : FileSystem) (path : String) : Except IoError FilePlace :=
  if path = "" then .error .notFound
  else if longestPath ≤ (Utf8.ofString path).length then .error .nameTooLong
  else if path.toList.head? = some '/' then FilePlace.walk ⟨fs.root, []⟩ (pathNames path)
  else fs.workingPlace.bind fun place => place.walk (pathNames path)

def read (fs : FileSystem) (path : String) : Except IoError Bytes :=
  if path.toList.contains '\x00' then
    .error (.other "file name contained an unexpected NUL byte")
  else
    match fs.resolve path with
    | .error e => .error e
    | .ok ⟨.file content, _⟩ => .ok content
    | .ok ⟨.directory _, _⟩ => .error .isADirectory
    | .ok ⟨.device, _⟩ => .ok []

def readText (fs : FileSystem) (path : String) : Except IoError String :=
  match fs.read path with
  | .error e => .error e
  | .ok content =>
    match Utf8.string? content with
    | some text => .ok text
    | none => .error (.other "stream did not contain valid UTF-8")

def withFile (fs : FileSystem) (path : String) (content : Bytes) : FileSystem :=
  let names := (pathNames path).filter fun name => name ≠ "" ∧ name ≠ "."
  { fs with root := FileNode.put (.file content) (fs.working ++ names) fs.root }

end FileSystem

end AccelControl
