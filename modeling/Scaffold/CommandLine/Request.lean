import Scaffold.CommandLine.Flag
import Scaffold.CommandLine.Settings
import Scaffold.Descriptor.Basic
import Scaffold.Project.Placement

/-!
What a command line asks for. A setting that stands without its value waits for the next argument;
it is settled when another flag comes or the line ends. Each flag may come once. An argument that
nobody waits for is unknown, and so is all that follows a bare double dash.
-/

namespace Scaffold.CommandLine

structure Request where
  init : Bool
  name : String
  output : String
  descriptor : Option String
  force : Bool
  noFormat : Bool
  summary : Option String
  description : Option String
  deriving DecidableEq, Repr

namespace Request

/-- What is known of a service that is made without a descriptor. -/
def info (r : Request) : Info :=
  { name := r.name, summary := r.summary.getD "", description := r.description.getD "" }

/-- Flags go before the environment, and the environment before the defaults. -/
def placement (r : Request) (s : Settings) : Placement :=
  let base : Placement := {}
  { base with
    root := r.output
    existing := if r.force then .overwrite else .refuse
    format := !r.noFormat
    formatter := s.formatter.getD base.formatter }

end Request

/-- Why a command line gives no request. -/
inductive Halt where
  | unknownArgument
  | invalidValue
  | tooManyValues
  | repeatedFlag
  | help
  | version
  deriving DecidableEq, Repr

/-- What has been read of a command line. -/
structure Reading where
  switches : List Switch := []
  settings : List (Setting × String) := []
  /-- The setting that waits, and the value it has been given. -/
  waiting : Option (Setting × Option String) := none
  deriving DecidableEq, Repr

namespace Reading

/-- Keeps the value of a setting. -/
def keep (g : Reading) (s : Setting) (value : String) : Except Halt Reading :=
  if (g.settings.lookup s).isSome then .error .repeatedFlag
  else if s.takesPath && value.isEmpty then .error .invalidValue
  else .ok { g with settings := g.settings ++ [(s, value)] }

/-- Ends the wait for a value. -/
def settle (g : Reading) : Except Halt Reading :=
  match g.waiting with
  | none => .ok g
  | some (_, none) => .error .invalidValue
  | some (s, some value) => keep { g with waiting := none } s value

def turn (g : Reading) (s : Switch) : Except Halt Reading := do
  let g ← g.settle
  match s with
  | .help => .error .help
  | .version => .error .version
  | s =>
    if g.switches.contains s then .error .repeatedFlag
    else .ok { g with switches := g.switches ++ [s] }

def await (g : Reading) (s : Setting) : Except Halt Reading := do
  let g ← g.settle
  .ok { g with waiting := some (s, none) }

def give (g : Reading) (s : Setting) (value : String) : Except Halt Reading := do
  let g ← g.settle
  g.keep s value

/-- An argument of two dashes, and perhaps a value behind an equals sign. -/
def long (g : Reading) (cs : List Char) : Except Halt Reading :=
  let value? := (cs.dropWhile (· != '=')).tail?
  match Flag.ofLongName? (String.ofList (cs.takeWhile (· != '='))), value? with
  | none, _ => .error .unknownArgument
  | some (.switch _), some _ => .error .tooManyValues
  | some (.switch s), none => g.turn s
  | some (.setting s), some value => g.give s (String.ofList value)
  | some (.setting s), none => g.await s

/-- A value that stands behind the letter of its setting, perhaps with an equals sign between. -/
def attached : List Char → String
  | '=' :: cs => String.ofList cs
  | cs => String.ofList cs

/-- The letters behind one dash. A setting takes the rest as its value. -/
def shorts (g : Reading) : List Char → Except Halt Reading
  | [] => .ok g
  | c :: cs =>
    match Flag.ofShortName? c with
    | none => .error .unknownArgument
    | some (.switch s) => do shorts (← g.turn s) cs
    | some (.setting s) => if cs.isEmpty then g.await s else g.give s (attached cs)

/-- An argument that is no flag. -/
def plain (g : Reading) (arg : String) : Except Halt Reading :=
  match g.waiting with
  | some (s, none) => .ok { g with waiting := some (s, some arg) }
  | _ => .error .unknownArgument

def argument (g : Reading) (arg : String) : Except Halt Reading :=
  match arg.toList with
  | '-' :: '-' :: cs => g.long cs
  | '-' :: c :: cs => g.shorts (c :: cs)
  | _ => g.plain arg

def arguments (g : Reading) : List String → Except Halt Reading
  | [] => g.settle
  | "--" :: rest => if rest.isEmpty then g.settle else .error .unknownArgument
  | arg :: rest => do arguments (← g.argument arg) rest

def value? (g : Reading) (s : Setting) : Option String := g.settings.lookup s <|> s.default?

def request (g : Reading) : Request :=
  { init := g.switches.contains .init
    name := (g.value? .name).getD ""
    output := (g.value? .output).getD ""
    descriptor := g.value? .descriptor
    force := g.switches.contains .force
    noFormat := g.switches.contains .noFormat
    summary := g.value? .summary
    description := g.value? .description }

end Reading

def parse (args : List String) : Except Halt Request := do
  let g ← Reading.arguments {} args
  .ok g.request

end Scaffold.CommandLine
