import Scaffold.CommandLine.Request
import Scaffold.Project.Generate

/-!
Doing what a command line asks for. Whether it asked to initialize is for the caller to look at.
-/

namespace Scaffold.CommandLine

inductive RunError where
  | load (path : String) (e : StoreError)
  | generate (name : String) (e : ProjectError)
  deriving DecidableEq, Repr

/-- A link in the chain of causes of an error. -/
inductive Cause where
  | said (text : String)
  | disk (e : DiskError)
  deriving DecidableEq, Repr

namespace Cause

def message : Cause → String
  | said text => text
  | disk e => e.message

end Cause

/-- What lies behind an unreadable text; what a reader of a format has against it is not told. -/
def readCauses : ReadError → List Cause
  | .malformed _ => []
  | .rejected r => [.said r.message]

def storeCauses (e : StoreError) : List Cause :=
  .said e.message ::
    (match e with
      | .disk _ e => [.disk e]
      | .unreadable e => readCauses e)

def projectCauses (e : ProjectError) : List Cause :=
  .said e.message ::
    (match e with
      | .disk _ e => [.disk e]
      | .formatterNotRun _ e => [.disk e]
      | .render _ e => [.said e.message]
      | .descriptor e => storeCauses e
      | _ => [])

/-- The error and its causes, the outermost first. -/
def RunError.causes : RunError → List Cause
  | load path e => .said ("failed to load descriptor " ++ path) :: storeCauses e
  | generate name e => .said ("failed to generate project " ++ Text.quoted name) :: projectCauses e

/-- The descriptor of the named file, or a fresh one. -/
def descriptor (r : Request) (disk : Disk) : Except RunError Descriptor :=
  match r.descriptor with
  | none => .ok (.base r.info)
  | some path =>
    match Descriptor.load path disk with
    | .ok d => .ok d
    | .error e => .error (.load path e)

/-- Generates the project and returns its directory. -/
def run (programs : Programs) (r : Request) (s : Settings) : Action RunError String := do
  let d ← Action.look (descriptor r)
  (Project.generate programs d (r.placement s)).adapt (.generate d.info.name)

end Scaffold.CommandLine
