import Scaffold.Yaml.Character

/-!
A place in a text: what is left of it, and the index, line and column reached.
-/

namespace Scaffold.Yaml

structure Cursor where
  rest : List Char
  index : Nat := 0
  line : Nat := 0
  column : Nat := 0

namespace Cursor

/-- Passes `n` characters of the current line. -/
def advance (c : Cursor) (n : Nat) : Cursor :=
  { rest := c.rest.drop n, index := c.index + n, line := c.line, column := c.column + n }

/-- Passes a line break; a carriage return takes the line feed behind it along. -/
def nextLine (c : Cursor) : Cursor :=
  match c.rest with
  | '\r' :: '\n' :: r => { rest := r, index := c.index + 2, line := c.line + 1, column := 0 }
  | _ :: r => { rest := r, index := c.index + 1, line := c.line + 1, column := 0 }
  | [] => c

/-- The characters of the current line that satisfy `p`, and the place behind them. -/
def takeWhile (p : Char → Bool) (c : Cursor) : List Char × Cursor :=
  let taken := c.rest.takeWhile p
  (taken, c.advance taken.length)

def skipWhile (p : Char → Bool) (c : Cursor) : Cursor := (c.takeWhile p).2

/-- Passes a comment, if one starts here. -/
def skipComment (c : Cursor) : Cursor :=
  if c.rest.head? == some '#' then c.skipWhile fun d => !isBreak d else c

/-- Whether three marks of the kind `m` stand alone at the start of the line. -/
def atRule (c : Cursor) (m : Char) : Bool :=
  c.column == 0 &&
    match c.rest with
    | x :: y :: z :: r => x == m && y == m && z == m && gapAhead r
    | _ => false

/-- Whether the line starts or ends a document. -/
def atDocumentMark (c : Cursor) : Bool := c.atRule '-' || c.atRule '.'

/-- What is left of the line holds nothing but blanks and a comment; the cursor moves behind it. -/
def finishLine? (c : Cursor) : Option Cursor :=
  let c := (c.skipWhile isSpaceOrTab).skipComment
  match c.rest with
  | [] => some c
  | d :: _ => if isBreak d then some c.nextLine else none

end Cursor

end Scaffold.Yaml
