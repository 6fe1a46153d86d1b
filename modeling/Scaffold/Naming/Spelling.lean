import Scaffold.Text.Case
import Scaffold.Text.Pieces

/-!
Two spellings of a name: words joined with capitals, and words joined by underscores.
-/

namespace Scaffold.Naming

open Text

def capitalize : List Char → List Char
  | [] => []
  | c :: cs => upper c ++ cs

/-- The words between dashes, underscores and spaces, each capitalized and set side by side. -/
def titleCase (s : String) : String :=
  String.ofList <|
    (piecesWhere (fun c => c == '-' || c == '_' || c == ' ') s.toList).flatMap capitalize

/-- Whether a capital opens a new word, given the characters around it. A run of capitals is one
word, and its last capital opens the next word when a small letter follows. -/
def opensWord : Option Char → Option Char → Bool
  | none, _ => false
  | some before, after => isLower before || before.isDigit || (isUpper before && after.any isLower)

def snakeFrom (before : Option Char) : List Char → List Char
  | [] => []
  | c :: cs =>
    if isUpper c then
      (if opensWord before cs.head? then ['_'] else []) ++ lower c ++ snakeFrom (some c) cs
    else c :: snakeFrom (some c) cs

/-- Small letters throughout, with an underscore before each capital that opens a word. -/
def snakeCase (s : String) : String := String.ofList (snakeFrom none s.toList)

end Scaffold.Naming
