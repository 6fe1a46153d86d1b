import Scaffold.CommandLine.Run

/-!
The program. It takes a picture of the disk as far as the request can reach, runs the request on the
picture, and then brings the disk to what the picture has become. It starts no other program, so a
formatter is never found.
-/

namespace Scaffold.Main

open CommandLine

def textOf (l : Location) : String := "/" ++ String.intercalate "/" l

/-- A location and all that it stands in, the root first. -/
def withAncestors (l : Location) : List Location := (List.range (l.length + 1)).map l.take

/-- Where a path leads by its names alone. -/
def locationOf (home : Location) (path : String) : Location :=
  (if Path.isAbsolute path then [] else home) ++ Path.components path

/-- The mode of a node in the picture. No mode that is set is like it, so setting any is a
change. -/
def unknownMode : Nat := Node.modeLimit

/-- Looks at one location of the real disk. What is there but cannot be read is taken for a
directory. -/
def nodeAt? (l : Location) : IO (Option Node) := do
  match ← (IO.FS.readFile (textOf l)).toBaseIO with
  | .ok text => return some (.file unknownMode text)
  | .error _ =>
    match ← (IO.FS.realPath (textOf l)).toBaseIO with
    | .ok _ => return some (.directory unknownMode)
    | .error _ => return none

/-- A picture of the given locations and of all that they stand in. -/
def picture (home : Location) (locations : List Location) : IO Disk := do
  let mut disk : Disk := { nodes := [], home }
  for l in locations.flatMap withAncestors do
    match ← nodeAt? l with
    | some n => disk := disk.put l n
    | none => pure ()
  return disk

/-- The locations that a request can reach below the root of its project. -/
def reach (home : Location) (name : String) (p : Placement) : List Location :=
  let base := locationOf home (Path.join p.root name)
  let files := Project.descriptorFile name :: Artifact.all.map (Artifact.path name)
  files.map fun file => base ++ Path.components file

def accessRight (bits : Nat) : IO.AccessRight :=
  { read := bits / 4 % 2 == 1, write := bits / 2 % 2 == 1, execution := bits % 2 == 1 }

def fileRight (mode : Nat) : IO.FileRight :=
  { user := accessRight (mode / 64), group := accessRight (mode / 8), other := accessRight mode }

/-- Brings one location of the real disk to what it is in the picture. -/
def bring (l : Location) (n : Node) : IO Unit := do
  match n with
  | .directory _ => IO.FS.createDirAll (textOf l)
  | .file _ text => IO.FS.writeFile (textOf l) text
  IO.setAccessRights (textOf l) (fileRight n.mode)

def bringChanges (before after : Disk) : IO Unit := do
  for (l, n) in after.nodes do
    if before.node? l != some n then bring l n

/-- The environment, as far as the settings look at it. -/
def settings : IO Settings := do
  let logFormat ← IO.getEnv Settings.logFormatVariable
  let formatter ← IO.getEnv Settings.formatterVariable
  return Settings.ofEnvironment fun key =>
    if key == Settings.logFormatVariable then logFormat
    else if key == Settings.formatterVariable then formatter
    else none

def noPrograms : Programs := fun _ => none

def report (e : RunError) : IO Unit :=
  IO.eprintln ("Error: " ++ String.intercalate ": " (e.causes.map Cause.message))

/-- Runs a request and returns the exit status. -/
def execute (r : Request) (s : Settings) : IO UInt32 := do
  let home := Path.components (toString (← IO.currentDir))
  let described := r.descriptor.toList.map (locationOf home)
  let first ← picture home described
  match descriptor r first with
  | .error e =>
    report e
    return 1
  | .ok d =>
    let before ← picture home (described ++ reach home d.info.name (r.placement s))
    let (result, after) := (run noPrograms r s).runOn before
    bringChanges before after
    match result with
    | .ok dir =>
      IO.println dir
      return 0
    | .error e =>
      report e
      return 1

end Scaffold.Main

open Scaffold CommandLine in
def main (args : List String) : IO UInt32 := do
  match parse args with
  | .error .help =>
    IO.print usage
    return 0
  | .error .version =>
    IO.print versionText
    return 0
  | .error _ =>
    IO.eprintln usage
    return 2
  | .ok r =>
    if r.init then Main.execute r (← Main.settings)
    else
      IO.eprintln usage
      return 1
