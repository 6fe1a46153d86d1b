import Scaffold.Toml.Section

/-!
The manifest of a generated crate: its package, its library and binaries, and what it depends on.
-/

namespace Scaffold

structure Package where
  name : String
  version : String
  edition : String
  description : Option String := none
  deriving DecidableEq, Repr

structure Binary where
  name : String
  path : String
  deriving DecidableEq, Repr

/-- What is asked of a dependency: a version, or a version with features. -/
inductive Dependency where
  | version (v : String)
  | featured (v : String) (features : List String)
  deriving DecidableEq, Repr

/-- The dependencies are sorted by name, and each name has one. -/
structure Manifest where
  package : Package
  libraryPath : String
  binaries : List Binary := []
  dependencies : List (String × Dependency) := []
  deriving DecidableEq, Repr

namespace Manifest

/-- Puts an entry at its place, where it takes that of an entry of the same name. -/
def insertDependency (name : String) (d : Dependency) :
    List (String × Dependency) → List (String × Dependency)
  | [] => [(name, d)]
  | (other, e) :: rest =>
    if name = other then (name, d) :: rest
    else if other < name then (other, e) :: insertDependency name d rest
    else (name, d) :: (other, e) :: rest

def withDependency (m : Manifest) (name : String) (d : Dependency) : Manifest :=
  { m with dependencies := insertDependency name d m.dependencies }

open Toml

def packageSection (p : Package) : Section :=
  { heading := .table ["package"]
    entries :=
      [("name", .text p.name), ("version", .text p.version), ("edition", .text p.edition)] ++
        (p.description.map fun d => ("description", Value.text d)).toList }

def librarySection (path : String) : Section :=
  { heading := .table ["lib"], entries := [("path", .text path)] }

def binarySection (b : Binary) : Section :=
  { heading := .element ["bin"], entries := [("name", .text b.name), ("path", .text b.path)] }

/-- Without binaries, an entry of the root says so. -/
def rootSections (binaries : List Binary) : List Section :=
  if binaries.isEmpty then [{ heading := .root, entries := [("bin", .texts [])] }] else []

def versionOnly? : String × Dependency → Option (String × Value)
  | (name, .version v) => some (name, .text v)
  | (_, .featured _ _) => none

def featuredSection? : String × Dependency → Option Section
  | (_, .version _) => none
  | (name, .featured v features) =>
    some
      { heading := .table ["dependencies", name]
        entries := [("version", .text v), ("features", .texts features)] }

/-- Versions stand in one section. Each dependency with features has its own, and where all have,
the common section is left out. -/
def dependencySections (dependencies : List (String × Dependency)) : List Section :=
  let versions := dependencies.filterMap versionOnly?
  let featured := dependencies.filterMap featuredSection?
  (if versions.isEmpty && !featured.isEmpty then []
    else [{ heading := .table ["dependencies"], entries := versions }]) ++ featured

def sections (m : Manifest) : List Section :=
  rootSections m.binaries ++ [packageSection m.package, librarySection m.libraryPath] ++
    m.binaries.map binarySection ++ dependencySections m.dependencies

/-- The line above every manifest. -/
def header : String := "# Generated by seed. Dependency versions are pinned by the generator."

def render (m : Manifest) : String := header ++ "\n\n" ++ Toml.render m.sections

end Manifest

end Scaffold
