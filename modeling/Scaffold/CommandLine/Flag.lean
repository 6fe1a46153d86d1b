/-!
The flags of the command line and the help that lists them. A switch stands alone and a setting
takes a value.
-/

namespace Scaffold.CommandLine

inductive Switch where
  | init | force | noFormat | help | version
  deriving DecidableEq, Repr

inductive Setting where
  | name | output | descriptor | summary | description
  deriving DecidableEq, Repr

inductive Flag where
  | switch (s : Switch)
  | setting (s : Setting)
  deriving DecidableEq, Repr

namespace Setting

/-- Whether the value is a path, which may not be empty. -/
def takesPath : Setting → Bool
  | output => true
  | descriptor => true
  | _ => false

/-- What stands for the value in the help. -/
def placeholder : Setting → String
  | name => "NAME"
  | output => "OUTPUT"
  | descriptor => "DESCRIPTOR"
  | summary => "SUMMARY"
  | description => "DESCRIPTION"

def default? : Setting → Option String
  | name => some "example"
  | output => some "."
  | _ => none

end Setting

namespace Flag

/-- In the order of the help. -/
def all : List Flag :=
  [switch .init, setting .name, setting .output, setting .descriptor, switch .force,
   switch .noFormat, setting .summary, setting .description, switch .help, switch .version]

def longName : Flag → String
  | switch .init => "init"
  | setting .name => "name"
  | setting .output => "output"
  | setting .descriptor => "descriptor"
  | switch .force => "force"
  | switch .noFormat => "no-fmt"
  | setting .summary => "summary"
  | setting .description => "description"
  | switch .help => "help"
  | switch .version => "version"

def shortName? : Flag → Option Char
  | switch .init => some 'i'
  | setting .name => some 'n'
  | setting .output => some 'o'
  | setting .descriptor => some 'd'
  | switch .help => some 'h'
  | switch .version => some 'V'
  | _ => none

def purpose : Flag → String
  | switch .init => "Initialize a new project"
  | setting .name => "Project name, used as the package name and the crate root file name"
  | setting .output => "Directory the project directory is created in"
  | setting .descriptor =>
    "Generate from an existing descriptor file (YAML, or JSON by extension)"
  | switch .force => "Overwrite an existing project directory"
  | switch .noFormat => "Do not run `cargo fmt` on the generated project"
  | setting .summary => "One-line summary of the service"
  | setting .description => "Longer description of the service"
  | switch .help => "Print help"
  | switch .version => "Print version"

def ofLongName? (s : String) : Option Flag := all.find? (·.longName == s)

def ofShortName? (c : Char) : Option Flag := all.find? (·.shortName? == some c)

/-- The names of the flag and what stands for its value. -/
def synopsis (f : Flag) : String :=
  (match f.shortName? with
    | some c => "  -" ++ String.singleton c ++ ", "
    | none => "      ") ++
    "--" ++ f.longName ++
    (match f with
      | switch _ => ""
      | setting s => " <" ++ s.placeholder ++ ">")

def defaultNote : Flag → String
  | switch _ => ""
  | setting s =>
    match s.default? with
    | some v => " [default: " ++ v ++ "]"
    | none => ""

/-- The width of the column of names. -/
def synopsisWidth : Nat := (all.map (·.synopsis.length)).foldl max 0

def helpLine (f : Flag) : String :=
  let gap := synopsisWidth + 2 - f.synopsis.length
  f.synopsis ++ String.ofList (List.replicate gap ' ') ++ f.purpose ++ f.defaultNote ++ "\n"

end Flag

def programName : String := "seed"

def usage : String :=
  "Scaffold an axum service from a route and middleware descriptor\n\nUsage: " ++ programName ++
    " [OPTIONS]\n\nOptions:\n" ++ String.join (Flag.all.map Flag.helpLine)

def versionText : String := programName ++ " 0.1.0-alpha.1\n"

end Scaffold.CommandLine
