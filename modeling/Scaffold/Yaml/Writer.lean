import Scaffold.Document.Basic
import Scaffold.Yaml.Character
import Scaffold.Yaml.Scalar

/-!
Writing a document as YAML. Each text takes the first of four forms that fits it: plain, in single
quotes, in double quotes with escapes, or, when it has a line feed, a literal block. Text that would
mean another value without quotes is quoted, and so are digits behind a leading zero.
-/

namespace Scaffold.Yaml

inductive Form where
  | plain | single | double | literal
  deriving DecidableEq, Repr

def startsWithRule : List Char → Bool
  | '-' :: '-' :: '-' :: _ => true
  | '.' :: '.' :: '.' :: _ => true
  | _ => false

/-- Characters that may not come first in a plain text. -/
def isFirstMark (c : Char) : Bool :=
  c == '#' || c == ',' || c == '[' || c == ']' || c == '\x7b' || c == '\x7d' || c == '&' ||
    c == '*' || c == '!' || c == '|' || c == '>' || c == '\'' || c == '"' || c == '%' || c == '@' ||
    c.toNat == 96

/-- Whether a colon before a gap, or a number sign behind one, occurs after the first character. -/
def hasInnerMark (before : Char) : List Char → Bool
  | [] => false
  | c :: r => (c == ':' && gapAhead r) || (c == '#' && isGap before) || hasInnerMark c r

def hasMark : List Char → Bool
  | [] => false
  | c :: r =>
    startsWithRule (c :: r) || isFirstMark c ||
      ((c == '?' || c == ':' || c == '-') && gapAhead r) || hasInnerMark c r

/-- Whether a character of the first kind stands directly before one of the second. -/
def hasPair (p q : Char → Bool) : List Char → Bool
  | c :: d :: r => (p c && q d) || hasPair p q (d :: r)
  | _ => false

def isSpace (c : Char) : Bool := c == ' '

def isSpaceOrBreak (c : Char) : Bool := c == ' ' || isBreak c

def spaceBeforeBreak (cs : List Char) : Bool := hasPair isSpace isBreak cs

def spaceAfterBreak (cs : List Char) : Bool := hasPair isBreak isSpace cs

def isSpecial (cs : List Char) : Bool := cs.any fun c => !isPrintable c

def fitsPlain (cs : List Char) : Bool :=
  !(cs.head?.any isSpaceOrBreak || cs.getLast?.any isSpaceOrBreak || cs.any isBreak ||
    isSpecial cs || hasMark cs)

def fitsSingle (cs : List Char) : Bool :=
  !(spaceAfterBreak cs || spaceBeforeBreak cs || isSpecial cs)

def fitsLiteral (cs : List Char) : Bool :=
  !(cs.isEmpty || cs.getLast? == some ' ' || spaceBeforeBreak cs || isSpecial cs)

def form (s : String) : Form :=
  let cs := s.toList
  if cs.contains '\n' then if fitsLiteral cs then .literal else .double
  else if meaning s = .text && !(hasLeadingZero cs) && fitsPlain cs then .plain
  else if fitsSingle cs then .single
  else .double

/-- The code point in capital hexadecimal of a fixed width. -/
def codePoint (width : Nat) (c : Char) : List Char :=
  Number.hexPadded Number.upperDigit width c.toNat

/-- The letter behind a backslash that names the character. -/
def shortName? (c : Char) : Option Char :=
  match c with
  | '\x00' => some '0'
  | '\x07' => some 'a'
  | '\x08' => some 'b'
  | '\t' => some 't'
  | '\n' => some 'n'
  | '\x0b' => some 'v'
  | '\x0c' => some 'f'
  | '\r' => some 'r'
  | '\x1b' => some 'e'
  | '"' => some '"'
  | '\\' => some '\\'
  | '\u0085' => some 'N'
  | '\u2028' => some 'L'
  | '\u2029' => some 'P'
  | _ => none

def escaped (c : Char) : List Char :=
  match shortName? c with
  | some x => ['\\', x]
  | none =>
    if isPrintable c then [c]
    else if c.toNat < 0x100 then '\\' :: 'x' :: codePoint 2 c
    else if c.toNat < 0x10000 then '\\' :: 'u' :: codePoint 4 c
    else '\\' :: 'U' :: codePoint 8 c

def doubleQuoted (cs : List Char) : List Char := '"' :: cs.flatMap escaped ++ ['"']

def blanks (n : Nat) : List Char := List.replicate n ' '

/-- The inside of single quotes; the text behind a line separator is indented. -/
def singleBody (indent : Nat) (behindBreak : Bool) : List Char → List Char
  | [] => if behindBreak then blanks indent else []
  | c :: r =>
    if isBreak c then c :: singleBody indent true r
    else
      (if behindBreak then blanks indent else []) ++ (if c == '\'' then ['\'', '\''] else [c]) ++
        singleBody indent false r

def singleQuoted (indent : Nat) (cs : List Char) : List Char :=
  '\'' :: singleBody indent false cs ++ ['\'']

/-- Lines of a literal block, each indented unless it is empty. -/
def literalBody (indent : Nat) (behindBreak : Bool) : List Char → List Char
  | [] => []
  | c :: r =>
    if isBreak c then c :: literalBody indent true r
    else (if behindBreak then blanks indent else []) ++ c :: literalBody indent false r

/-- How the end of a literal block is to be read: without its line break, with one, or with all. -/
def chompMark (cs : List Char) : List Char :=
  match cs.reverse with
  | [] => ['-']
  | [c] => if isBreak c then ['+'] else ['-']
  | c :: d :: _ => if !isBreak c then ['-'] else if isBreak d then ['+'] else []

/-- A leading blank or break would hide the indentation, so that its width is given. -/
def indentMark (cs : List Char) : List Char := if cs.head?.any isSpaceOrBreak then ['2'] else []

def literalBlock (indent : Nat) (cs : List Char) : List Char :=
  '|' :: indentMark cs ++ chompMark cs ++ '\n' :: literalBody indent true cs

/-- A text whose further lines, if any, are indented so far, without its last line end. -/
def writeText (indent : Nat) (s : String) : List Char :=
  let cs := s.toList
  match form s with
  | .plain => cs
  | .single => singleQuoted indent cs
  | .double => doubleQuoted cs
  | .literal => literalBlock indent cs

/-- Ends the line of a text; a block that ends with a break has done so. -/
def endLine (cs : List Char) : List Char := if cs.getLast?.any isBreak then cs else cs ++ ['\n']

mutual

/-- A value behind its key or dash on the same line, with the line end. The parts of a record and
the entries of a list stand on lines of their own, a list at the indent of its key. -/
def writeValue (indent : Nat) : Document → List Char
  | .text s => ' ' :: endLine (writeText (indent + 2) s)
  | .flag b => if b then " true\n".toList else " false\n".toList
  | .number n => ' ' :: (toString n).toList ++ ['\n']
  | .list [] => " []\n".toList
  | .list (x :: xs) => '\n' :: writeEntries indent (x :: xs)
  | .record [] => " {}\n".toList
  | .record (m :: ms) => '\n' :: blanks (indent + 2) ++ writeMember (indent + 2) m ++
      writeMembers (indent + 2) ms

/-- An entry behind its dash; a record starts on the line of the dash. -/
def writeEntry (indent : Nat) : Document → List Char
  | .record (m :: ms) => ' ' :: writeMember (indent + 2) m ++ writeMembers (indent + 2) ms
  | .list (x :: xs) => ' ' :: '-' :: writeEntry (indent + 2) x ++ writeEntries (indent + 2) xs
  | .text s => ' ' :: endLine (writeText (indent + 2) s)
  | .flag b => if b then " true\n".toList else " false\n".toList
  | .number n => ' ' :: (toString n).toList ++ ['\n']
  | .list [] => " []\n".toList
  | .record [] => " {}\n".toList

def writeEntries (indent : Nat) : List Document → List Char
  | [] => []
  | x :: xs => blanks indent ++ '-' :: writeEntry indent x ++ writeEntries indent xs

/-- A member; keys are words that need no quotes. -/
def writeMember (indent : Nat) : String × Document → List Char
  | (key, x) => key.toList ++ ':' :: writeValue indent x

def writeMembers (indent : Nat) : List (String × Document) → List Char
  | [] => []
  | m :: ms => blanks indent ++ writeMember indent m ++ writeMembers indent ms

end

/-- A whole document. -/
def write : Document → List Char
  | .record (m :: ms) => writeMembers 0 (m :: ms)
  | .list (x :: xs) => writeEntries 0 (x :: xs)
  | d => (writeValue 0 d).drop 1

end Scaffold.Yaml

namespace Scaffold.Document

def toYaml (d : Document) : String := String.ofList (Yaml.write d)

end Scaffold.Document
