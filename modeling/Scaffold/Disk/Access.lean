import Scaffold.Disk.Basic
import Scaffold.Disk.Path

/-!
Access to a disk by path. A path is walked part by part, and each part but the last must be a
directory that is there. What fails changes nothing. Modes are kept but not enforced.
-/

namespace Scaffold

inductive DiskError where
  | notFound
  | alreadyExists
  | isDirectory
  | notDirectory
  | nulInPath
  | nameTooLong
  deriving DecidableEq, Repr

namespace DiskError

def message : DiskError → String
  | notFound => "No such file or directory (os error 2)"
  | alreadyExists => "File exists (os error 17)"
  | isDirectory => "Is a directory (os error 21)"
  | notDirectory => "Not a directory (os error 20)"
  | nulInPath => "file name contained an unexpected NUL byte"
  | nameTooLong => "File name too long (os error 36)"

end DiskError

namespace Disk

/-- The most bytes that a name may have. -/
def nameLimit : Nat := 255

/-- A path has fewer bytes than this. -/
def pathLimit : Nat := 4096

/-- Follows one part of a path from a location, which must be a directory. -/
def follow (d : Disk) (l : Location) (part : String) : Except DiskError Location :=
  match d.node? l with
  | none => .error .notFound
  | some (.file _ _) => .error .notDirectory
  | some (.directory _) =>
    if part = "." then .ok l
    else if part = ".." then .ok l.dropLast
    else if nameLimit < part.utf8ByteSize then .error .nameTooLong
    else .ok (l ++ [part])

/-- Where a path leads. The last part need not be there. -/
def locate (d : Disk) (path : String) : Except DiskError Location :=
  if path.toList.contains '\x00' then .error .nulInPath
  else if path.isEmpty then .error .notFound
  else if pathLimit ≤ path.utf8ByteSize then .error .nameTooLong
  else (Path.parts path).foldlM d.follow (if Path.isAbsolute path then [] else d.home)

/-- What is at a path, and where. -/
def find (d : Disk) (path : String) : Except DiskError (Location × Node) :=
  match d.locate path with
  | .error e => .error e
  | .ok l =>
    match d.node? l with
    | none => .error .notFound
    | some n =>
      if Path.endsInSlash path && !n.isDirectory then .error .notDirectory else .ok (l, n)

def isThere (d : Disk) (path : String) : Bool :=
  match d.find path with
  | .ok _ => true
  | .error _ => false

def isDirectoryAt (d : Disk) (path : String) : Bool :=
  match d.find path with
  | .ok (_, n) => n.isDirectory
  | .error _ => false

def modeAt? (d : Disk) (path : String) : Option Nat :=
  match d.find path with
  | .ok (_, n) => some n.mode
  | .error _ => none

def read (d : Disk) (path : String) : Except DiskError String :=
  match d.find path with
  | .error e => .error e
  | .ok (_, .directory _) => .error .isDirectory
  | .ok (_, .file _ text) => .ok text

/-- Puts a text into a file. A file that is there keeps its mode. -/
def write (d : Disk) (path text : String) : Except DiskError Disk :=
  match d.locate path with
  | .error e => .error e
  | .ok l =>
    if Path.endsInSlash path then .error .isDirectory
    else
      match d.node? l with
      | some (.directory _) => .error .isDirectory
      | some (.file mode _) => .ok (d.put l (.file mode text))
      | none => .ok (d.put l (.file Node.newFileMode text))

/-- Makes one directory in a directory that is there. -/
def makeDirectory (d : Disk) (path : String) : Except DiskError Disk :=
  match d.locate path with
  | .error e => .error e
  | .ok l =>
    match d.node? l with
    | some _ => .error .alreadyExists
    | none => .ok (d.put l (.directory Node.newDirectoryMode))

def setMode (d : Disk) (path : String) (mode : Nat) : Except DiskError Disk :=
  match d.find path with
  | .error e => .error e
  | .ok (l, n) => .ok (d.put l (n.withMode (mode % Node.modeLimit)))

end Disk

end Scaffold
