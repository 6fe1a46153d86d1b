import Scaffold.Text.Pieces

/-!
Paths as text: parts between slashes, where a single dot leads nowhere and two dots lead upwards.
-/

namespace Scaffold.Path

def parts (path : String) : List String := (Text.splitAt '/' path).filter (· != "")

/-- The parts that lead somewhere. -/
def components (path : String) : List String := (parts path).filter (· != ".")

/-- Whether the path starts from the root of the disk. -/
def isAbsolute (path : String) : Bool := path.toList.head? == some '/'

/-- Whether the path asks for a directory. -/
def endsInSlash (path : String) : Bool := path.toList.getLast? == some '/'

/-- The last component, unless it leads upwards. -/
def fileName? (path : String) : Option String :=
  match (components path).getLast? with
  | some ".." => none
  | last => last

/-- What follows the last dot of the file name, if anything precedes that dot. -/
def extension? (path : String) : Option String := do
  let name := (← fileName? path).toList
  if name.contains '.' then
    let behind := name.reverse.takeWhile (· != '.')
    if behind.length + 1 = name.length then none else some (String.ofList behind.reverse)
  else none

/-- A path below a directory; below the empty path it stands alone. -/
def join (directory name : String) : String :=
  if directory.isEmpty || endsInSlash directory then directory ++ name
  else directory ++ "/" ++ name

end Scaffold.Path
