import Scaffold.Number.Digits
import Scaffold.Text.GlyphTable

/-!
Quoted literals of the generated source. Five controls have a short escape, the quote in use and the
backslash are escaped by a backslash, and a character that shows no glyph of its own, or attaches to
the one before it, is written by its code point.
-/

namespace Scaffold.Text

def inRange (n : Nat) (range : Nat × Nat) : Bool :=
  decide (range.1 ≤ n) && decide (n ≤ range.2)

/-- Whether the character may be written as itself. -/
def isVisible (c : Char) : Bool :=
  let n := c.toNat
  if n < 127 then decide (32 ≤ n)
  else n != 127 && !(GlyphTable.hiddenRuns.any (inRange n)) &&
    !(GlyphTable.extenderRuns.any (inRange n))

def escape (quote c : Char) : List Char :=
  match c with
  | '\x00' => ['\\', '0']
  | '\t' => ['\\', 't']
  | '\r' => ['\\', 'r']
  | '\n' => ['\\', 'n']
  | '\\' => ['\\', '\\']
  | _ =>
    if c == quote then ['\\', c]
    else if isVisible c then [c]
    else ['\\', 'u', '{'] ++ Number.hexDigits Number.lowerDigit c.toNat ++ ['}']

def quoteChars (cs : List Char) : List Char := '"' :: cs.flatMap (escape '"') ++ ['"']

/-- The literal of a text, in double quotes. -/
def quoted (s : String) : String := String.ofList (quoteChars s.toList)

/-- The literal of one character, in single quotes. -/
def quotedChar (c : Char) : String := String.ofList ('\'' :: escape '\'' c ++ ['\''])

end Scaffold.Text
