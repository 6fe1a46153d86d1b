/-!
Character classes of the YAML format.
-/

namespace Scaffold.Yaml

/-- Line feed, carriage return, next line, line separator and paragraph separator. -/
def isBreak (c : Char) : Bool :=
  c == '\n' || c == '\r' || c == '\u0085' || c == '\u2028' || c == '\u2029'

def isSpaceOrTab (c : Char) : Bool := c == ' ' || c == '\t'

def isGap (c : Char) : Bool := isSpaceOrTab c || isBreak c

/-- Whether a gap follows; the end of the text counts as one. -/
def gapAhead (cs : List Char) : Bool := cs.head?.all isGap

/-- What names of anchors, tag handles and directives are made of. -/
def isNameChar (c : Char) : Bool := c.isAlphanum || c == '_' || c == '-'

/-- The characters that a text may hold unescaped. -/
def isAllowed (c : Char) : Bool :=
  let n := c.toNat
  n == 0x09 || n == 0x0A || n == 0x0D || (decide (0x20 ≤ n) && decide (n ≤ 0x7E)) || n == 0x85 ||
    (decide (0xA0 ≤ n) && decide (n ≤ 0xD7FF)) || (decide (0xE000 ≤ n) && decide (n ≤ 0xFFFD)) ||
    decide (0x10000 ≤ n)

/-- The characters that a writer leaves unescaped: no tab and no byte order mark. -/
def isPrintable (c : Char) : Bool :=
  let n := c.toNat
  n == 0x0A || (decide (0x20 ≤ n) && decide (n ≤ 0x7E)) ||
    (decide (0xA0 ≤ n) && decide (n ≤ 0xD7FF)) ||
    (decide (0xE000 ≤ n) && decide (n ≤ 0xFFFD) && n != 0xFEFF) || decide (0x10000 ≤ n)

/-- The break as it enters a scalar: line and paragraph separators stay, the others become a line
feed. -/
def normalBreak (c : Char) : Char := if c == '\u2028' || c == '\u2029' then c else '\n'

end Scaffold.Yaml
