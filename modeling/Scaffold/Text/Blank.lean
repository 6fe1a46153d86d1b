/-!
Blank characters and the removal of blanks from the ends of a text.
-/

namespace Scaffold.Text

/-- The white space of the whole character set, line and paragraph separators included. -/
def isBlank (c : Char) : Bool :=
  let n := c.toNat
  (decide (9 ≤ n) && decide (n ≤ 13)) || n == 32 || n == 133 || n == 160 || n == 5760 ||
    (decide (8192 ≤ n) && decide (n ≤ 8202)) || n == 8232 || n == 8233 || n == 8239 ||
    n == 8287 || n == 12288

def dropBlanksEnd (cs : List Char) : List Char := (cs.reverse.dropWhile isBlank).reverse

def trimEnd (s : String) : String := String.ofList (dropBlanksEnd s.toList)

def trim (s : String) : String := String.ofList (dropBlanksEnd (s.toList.dropWhile isBlank))

end Scaffold.Text
