import Scaffold.Descriptor.Basic
import Scaffold.Manifest.Basic

/-!
The manifest of a service. Its package is that of the descriptor; its dependencies are pinned and do
not depend on the descriptor.
-/

namespace Scaffold

structure PinnedDependency where
  name : String
  version : String
  features : List String := []
  deriving DecidableEq, Repr

namespace PinnedDependency

def all : List PinnedDependency :=
  [{ name := "axum", version := "0.8.4" },
   { name := "tokio", version := "1.45.1", features := ["macros", "net", "rt-multi-thread"] },
   { name := "tower", version := "0.5.2", features := ["util"] }]

def dependency (p : PinnedDependency) : Dependency :=
  if p.features.isEmpty then .version p.version else .featured p.version p.features

end PinnedDependency

namespace Package

def generatedVersion : String := "0.1.0"

/-- The latest edition in which the name of the generated module is no keyword. -/
def generatedEdition : String := "2021"

end Package

/-- Where the service stub, which is the root of the crate, is kept. -/
def stubPath (project : String) : String := project ++ ".rs"

def entrypointPath : String := "cmd/main.rs"

namespace Descriptor

/-- The package takes its description from the summary, unless that is blank. -/
def manifest (d : Descriptor) : Manifest :=
  let summary := Text.trim d.info.summary
  { package :=
      { name := d.info.name
        version := Package.generatedVersion
        edition := Package.generatedEdition
        description := if summary.isEmpty then none else some summary }
    libraryPath := stubPath d.info.name
    binaries := [{ name := d.info.name, path := entrypointPath }]
    dependencies := PinnedDependency.all.map fun p => (p.name, p.dependency) }

end Descriptor

end Scaffold
