import Scaffold.Naming.Spelling

/-!
Identifiers of the generated language: which names are identifiers, how a keyword becomes one, and
which project names give a crate.
-/

namespace Scaffold.Naming

/-- Words with a meaning of their own, strict and reserved ones alike. -/
def keywords : List String :=
  ["as", "async", "await", "break", "const", "continue", "crate", "dyn", "else", "enum",
   "extern", "false", "fn", "for", "if", "impl", "in", "let", "loop", "match", "mod",
   "move", "mut", "pub", "ref", "return", "self", "Self", "static", "struct", "super", "trait",
   "true", "try", "type", "unsafe", "use", "where", "while", "abstract", "become", "box", "do",
   "final", "macro", "override", "priv", "typeof", "unsized", "virtual", "yield"]

/-- Words that stay reserved behind the raw marker. -/
def neverRaw : List String := ["crate", "self", "Self", "super", "_"]

def isKeyword (name : String) : Bool := keywords.contains name

def isWordChar (c : Char) : Bool := c.isAlphanum || c == '_'

/-- ASCII letters, digits and underscores, not starting with a digit, and not a lone underscore. -/
def isWord : List Char → Bool
  | [] => false
  | c :: cs => (c.isAlpha || c == '_') && cs.all isWordChar && !(c == '_' && cs.isEmpty)

/-- A keyword becomes a raw identifier, or takes an underscore behind it where it may not. -/
def escapeKeyword (name : String) : String :=
  if neverRaw.contains name then name ++ "_"
  else if isKeyword name then "r#" ++ name
  else name

/-- The method generated for a handler name. -/
def methodName (handler : String) : String := escapeKeyword (snakeCase handler)

/-- A plain word that is no keyword, or a raw one that may be raw. -/
def isIdentifier (name : String) : Bool :=
  match name.toList with
  | 'r' :: '#' :: bare => isWord bare && !(neverRaw.contains (String.ofList bare))
  | bare => isWord bare && !(isKeyword name)

/-- Segments that are keywords and still legal inside a path. -/
def pathKeywords : List String := ["crate", "self", "Self", "super"]

/-- Identifiers, or the keywords that a path may hold, between double colons. -/
def isPath (path : String) : Bool :=
  (Text.splitPath path).all fun segment => pathKeywords.contains segment || isIdentifier segment

/-- The crate of a project, as import lines name it. -/
def crateIdent (project : String) : String :=
  String.ofList (project.toList.map fun c => if c == '-' then '_' else c)

/-- A project name is a package name and, with dashes replaced, a crate identifier. -/
def isProjectName (name : String) : Bool :=
  match name.toList with
  | [] => false
  | c :: cs =>
    c.isAlpha && (cs.all fun d => d.isAlphanum || d == '_' || d == '-') &&
      !(isKeyword (crateIdent name))

end Scaffold.Naming
