import Scaffold.Toml.Quoting

/-!
A TOML text as a list of sections. Each has a heading, but for the entries of the root, and a line
for each entry; an empty line stands between two sections.
-/

namespace Scaffold.Toml

inductive Value where
  | text (s : String)
  | texts (items : List String)
  deriving DecidableEq, Repr

def Value.render : Value → String
  | text s => quoted s
  | texts items => "[" ++ String.intercalate ", " (items.map quoted) ++ "]"

inductive Heading where
  | root
  | table (path : List String)
  /-- One more element of an array of tables. -/
  | element (path : List String)
  deriving DecidableEq, Repr

def keyPath (path : List String) : String := String.intercalate "." (path.map key)

def Heading.render : Heading → String
  | root => ""
  | table path => "[" ++ keyPath path ++ "]\n"
  | element path => "[[" ++ keyPath path ++ "]]\n"

structure Section where
  heading : Heading
  entries : List (String × Value)
  deriving DecidableEq, Repr

def entryLine (entry : String × Value) : String := key entry.1 ++ " = " ++ entry.2.render ++ "\n"

def Section.render (s : Section) : String :=
  s.heading.render ++ String.join (s.entries.map entryLine)

def render (sections : List Section) : String :=
  String.intercalate "\n" (sections.map Section.render)

end Scaffold.Toml
