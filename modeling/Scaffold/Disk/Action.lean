import Scaffold.Disk.Access

/-!
Actions on a disk that may fail part way. What an action did before it failed stays done. A change
fails where the tree does not allow it, and where something from outside hinders it, such as a
missing permission or a lack of space.
-/

namespace Scaffold

inductive Change where
  | makeDirectory (path : String)
  | write (path text : String)
  | setMode (path : String) (mode : Nat)

/-- What the tree of a disk makes of a change. -/
def Change.apply (d : Disk) : Change → Except DiskError Disk
  | makeDirectory path => d.makeDirectory path
  | write path text => d.write path text
  | setMode path mode => d.setMode path mode

/-- Which changes are hindered on which disks. Reasons from outside are not told apart, so a
hindered change fails with any of the errors. -/
abbrev Conditions := Disk → Change → Option DiskError

namespace Conditions

/-- Nothing is hindered. -/
def fair : Conditions := fun _ _ => none

/-- The disk behind a change, unless it fails. -/
def attempt (o : Conditions) (c : Change) (d : Disk) : Except DiskError Disk :=
  match o d c with
  | some e => .error e
  | none => c.apply d

end Conditions

abbrev Action (ε α : Type) := ExceptT ε (ReaderT Conditions (StateM Disk)) α

namespace Action

/-- Looks something up. -/
def look {ε α : Type} (f : Disk → Except ε α) : Action ε α := do
  match f (← get) with
  | .ok a => pure a
  | .error e => throw e

/-- Changes the disk, or fails and leaves it as it is. -/
def change {ε : Type} (f : Disk → Except ε Disk) : Action ε Unit := do
  match f (← get) with
  | .ok d => set d
  | .error e => throw e

/-- Tries a change, unless it is hindered. -/
def perform (c : Change) : Action DiskError Unit := do
  change ((← read).attempt c)

/-- Runs the action on a disk. -/
def runOn {ε α : Type} (a : Action ε α) (d : Disk) (o : Conditions := .fair) :
    Except ε α × Disk :=
  (a.run.run o).run d

end Action

namespace Disk

/-- A directory that could not be made is no failure if it is there. -/
def excuse (path : String) (e : DiskError) : Action DiskError Unit := do
  if (← get).isDirectoryAt path then pure () else throw e

/-- Makes the directory at a path in one that is there, unless it is there itself. -/
def makeOne (path : String) : Action DiskError Unit :=
  tryCatch (Action.perform (.makeDirectory path)) (excuse path)

/-- Makes the directory at a path, unless it is there. Where the path leads nowhere yet, `above` is
to make what it stands in. -/
def makeBelow (path : String) (above : Action DiskError Unit) : Action DiskError Unit :=
  tryCatch (Action.perform (.makeDirectory path)) fun
    | .notFound => do
      above
      makeOne path
    | e => excuse path e

/-- Makes the directory of the given components, the last first, and all it stands in. -/
def makeAll (start : String) : List String → Action DiskError Unit
  | [] => pure ()
  | part :: above =>
    makeBelow (start ++ String.intercalate "/" (part :: above).reverse) (makeAll start above)

/-- Makes the directory at a path with all directories on the way to it. -/
def makeDirectories (path : String) : Action DiskError Unit :=
  if path.isEmpty then pure ()
  else
    makeBelow path
      (makeAll (if Path.isAbsolute path then "/" else "") (Path.components path).reverse.tail)

end Disk

end Scaffold
