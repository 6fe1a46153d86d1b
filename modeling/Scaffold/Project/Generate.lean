import Scaffold.Descriptor.Stored
import Scaffold.Project.Formatting
import Scaffold.Project.Placement
import Scaffold.Service.Artifact

/-!
Writing a project to a disk: its directories, the generated files one after the other, and the
descriptor. The first failure ends the run, and what was written before it stays.
-/

namespace Scaffold

inductive ProjectError where
  | invalidName (name : String)
  | alreadyExists (dir : String)
  | disk (path : String) (e : DiskError)
  | formatFailed (dir : String) (code : Nat)
  | formatterNotRun (program : String) (e : DiskError)
  | render (a : Artifact) (e : Source.RenderError)
  | descriptor (e : StoreError)
  deriving DecidableEq, Repr

namespace ProjectError

def message : ProjectError → String
  | invalidName name =>
    "invalid project name " ++ Text.quoted name ++ ": expected an ASCII letter followed by " ++
      "letters, digits, `_` or `-`, and not a Rust keyword"
  | alreadyExists dir => "project directory " ++ dir ++ " already exists"
  | disk path _ => "failed to write " ++ path
  | formatFailed dir code =>
    "`cargo fmt` failed in " ++ dir ++ " (exit status: " ++ toString code ++ ")"
  | formatterNotRun program _ => "failed to run `" ++ program ++ " fmt`"
  | render a _ => "failed to render the " ++ a.name
  | descriptor _ => "failed to load the descriptor"

end ProjectError

namespace Project

/-- The file that keeps the descriptor of a project. -/
def descriptorFile (name : String) : String := name ++ ".yml"

def makeDirectory (p : Placement) (path : String) : Action ProjectError Unit :=
  (do
    Disk.makeDirectories path
    Action.perform (.setMode path p.directoryMode)).adapt (.disk path)

def writeFile (p : Placement) (path text : String) : Action ProjectError Unit :=
  (do
    Action.perform (.write path text)
    Action.perform (.setMode path p.fileMode)).adapt (.disk path)

def writeArtifact (d : Descriptor) (p : Placement) (base : String) (a : Artifact) :
    Action ProjectError Unit :=
  match a.render d with
  | .error e => throw (.render a e)
  | .ok text => writeFile p (Path.join base (a.path d.info.name)) text

/-- Formats the project in a directory. -/
def format (programs : Programs) (program dir : String) (disk : Disk) :
    Except ProjectError Unit :=
  match runFormatter programs program dir disk with
  | .ok () => .ok ()
  | .error (.notRun e) => .error (.formatterNotRun program e)
  | .error (.status code) => .error (.formatFailed dir code)

/-- Writes the project of a descriptor below the root, and returns its directory. -/
def generate (programs : Programs) (d : Descriptor) (p : Placement) :
    Action ProjectError String := do
  let name := d.info.name
  if !Naming.isProjectName name then throw (.invalidName name)
  let base := Path.join p.root name
  if (← get).isThere base && p.existing == .refuse then throw (.alreadyExists base)
  makeDirectory p base
  makeDirectory p (Path.join base Artifact.generatedFolder)
  makeDirectory p (Path.join base Artifact.commandFolder)
  Artifact.all.forM (writeArtifact d p base)
  writeFile p (Path.join base (descriptorFile name)) d.toYaml
  if p.format then Action.look (format programs p.formatter base)
  pure base

/-- Writes the project of the descriptor that a file holds. -/
def generateFromFile (programs : Programs) (path : String) (p : Placement) :
    Action ProjectError String := do
  let d ← (Action.look (Descriptor.load path)).adapt .descriptor
  generate programs d p

end Project

end Scaffold
