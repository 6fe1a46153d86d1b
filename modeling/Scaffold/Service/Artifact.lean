import Scaffold.Disk.Path
import Scaffold.Manifest.Pinned
import Scaffold.Service.Bootstrap
import Scaffold.Service.Entrypoint
import Scaffold.Service.Stub
import Scaffold.Source.Requirement

/-!
The five files that are generated for every service, each from the descriptor alone.
-/

namespace Scaffold

inductive Artifact where
  | stub | contract | bootstrap | entrypoint | manifest
  deriving DecidableEq, Repr

namespace Artifact

/-- In the order in which they are written. -/
def all : List Artifact := [stub, contract, bootstrap, entrypoint, manifest]

def name : Artifact → String
  | stub => "service stub"
  | contract => "interface contract"
  | bootstrap => "bootstrap router"
  | entrypoint => "entrypoint"
  | manifest => "dependency manifest"

/-- The directory of the entrypoint. -/
def commandFolder : String := "cmd"

/-- The directory of the files that are generated anew each time. -/
def generatedFolder : String := "gen"

/-- Where the file is kept, from the directory of the project. -/
def path (project : String) : Artifact → String
  | stub => stubPath project
  | contract => Path.join generatedFolder "interface.rs"
  | bootstrap => Path.join generatedFolder "bootstrap.rs"
  | entrypoint => Path.join commandFolder "main.rs"
  | manifest => "Cargo.toml"

/-- Whether the file holds source code, which a formatter may lay out anew. -/
def isSource : Artifact → Bool
  | manifest => false
  | _ => true

/-- The text of the file. A manifest always has one. -/
def render (d : Descriptor) : Artifact → Except Source.RenderError String
  | stub => (Service.stub d).render
  | contract => (Service.contract d).render
  | bootstrap => (Service.bootstrap d).render
  | entrypoint => (Service.entrypoint d).render
  | manifest => .ok d.manifest.render

end Artifact

end Scaffold
