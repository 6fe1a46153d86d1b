import Scaffold.Descriptor.Shape
import Scaffold.Disk.Path
import Scaffold.Json.Reader
import Scaffold.Json.Writer
import Scaffold.Yaml.Alias
import Scaffold.Yaml.Writer

/-!
The two formats of a descriptor file.
-/

namespace Scaffold

inductive Format where
  | yaml | json
  deriving DecidableEq, Repr

/-- Files whose extension is that of JSON, in any case, hold JSON, and all others YAML. -/
def Format.ofPath (path : String) : Format :=
  match Path.extension? path with
  | some e => if Text.sameAsciiLetters e "json" then .json else .yaml
  | none => .yaml

/-- Why a text gives no descriptor: it is not a descriptor of its format, or an entry is refused. -/
inductive ReadError where
  | malformed (f : Format)
  | rejected (r : Rejection)
  deriving DecidableEq, Repr

namespace ReadError

def message : ReadError → String
  | malformed .yaml => "invalid YAML descriptor"
  | malformed .json => "invalid JSON descriptor"
  | rejected _ => "descriptor violates its invariants"

end ReadError

namespace Draft

def parse? : Format → String → Option Draft
  | .yaml, s => do read (← Yaml.parse? s)
  | .json, s => do read (← Json.parse? s)

end Draft

namespace Descriptor

def toYaml (d : Descriptor) : String := d.document.toYaml

def toJson (d : Descriptor) : String := d.document.toJson

def write (f : Format) (d : Descriptor) : String :=
  match f with
  | .yaml => d.toYaml
  | .json => d.toJson

def parse (f : Format) (s : String) : Except ReadError Descriptor :=
  match Draft.parse? f s with
  | none => .error (.malformed f)
  | some draft =>
    match draft.build with
    | .ok d => .ok d
    | .error r => .error (.rejected r)

def ofYaml (s : String) : Except ReadError Descriptor := parse .yaml s

def ofJson (s : String) : Except ReadError Descriptor := parse .json s

end Descriptor

end Scaffold
