import AccelControl.Files

/-! The host of a rehearsal: a working directory of its own, and sockets at paths. -/

set_option autoImplicit false

namespace AccelControl.Rehearsal

def emptyDirectory : FileNode := .directory []

/-- The files of the host. The working directory holds nothing but an empty directory. -/
def host : FileSystem where
  root := .directory [
    ("bin", emptyDirectory),
    ("dev", .directory [("null", .device), ("zero", .device)]),
    ("etc", emptyDirectory),
    ("home", emptyDirectory),
    ("proc", emptyDirectory),
    ("rehearsal", .directory [("stage", .directory [("dir", emptyDirectory)])]),
    ("root", emptyDirectory),
    ("run", emptyDirectory),
    ("sys", emptyDirectory),
    ("tmp", emptyDirectory),
    ("usr", emptyDirectory),
    ("var", .directory [("run", emptyDirectory), ("tmp", emptyDirectory)])]
  working := ["rehearsal", "stage"]

/-- The number of bytes reserved for the path of a socket, the mark at its end included. -/
def socketPathSize : Nat := 108

inductive Site where
  /-- A path at which a socket can appear. -/
  | free
  /-- Nothing can listen here, and connecting fails. -/
  | barred (error : IoError)
  deriving DecidableEq, Repr

/-- Whether a path without a target could be the path of a new socket: it lies in a directory, and
its last name is a name of its own. -/
def canBind (fs : FileSystem) (path : String) : Bool :=
  let names := pathNames path
  match names.getLast? with
  | none => false
  | some name =>
    name ≠ "" && name ≠ "." && name ≠ ".." &&
      match fs.resolve (String.intercalate "/" (names.dropLast ++ ["."])) with
      | .ok place => place.node.isDirectory
      | .error _ => false

def siteAt (fs : FileSystem) (path : String) : Site :=
  if path.toList.contains '\x00' then
    .barred (.other "paths must not contain interior null bytes")
  else if socketPathSize ≤ (Utf8.ofString path).length then
    .barred (.other "path must be shorter than SUN_LEN")
  else
    match fs.resolve path with
    | .ok _ => .barred .connectionRefused
    | .error error => if canBind fs path then .free else .barred error

end AccelControl.Rehearsal
