import Scaffold.Number.Digits

/-!
Four ways to quote a text in TOML. A literal shows its characters as they are; a basic text has
escapes. The long forms of both may run over several lines. The plainest form that needs no escape
is chosen, and a basic one if there is none.
-/

namespace Scaffold.Toml

/-- Controls that only an escape can write; tab and line feed are not among them. -/
def isControlCode (c : Char) : Bool :=
  (decide (c.toNat < 32) && c != '\t' && c != '\n') || c.toNat == 127

/-- The length of the longest run of a character. The first number is that of the run so far. -/
def longestRunFrom (q : Char) (run : Nat) : List Char → Nat
  | [] => run
  | c :: cs => if c == q then longestRunFrom q (run + 1) cs else max run (longestRunFrom q 0 cs)

def longestRun (q : Char) (cs : List Char) : Nat := longestRunFrom q 0 cs

/-- Whether the text may stand between double quotes as it is. -/
def plainBasic (cs : List Char) : Bool :=
  !(cs.any isControlCode) && !(cs.contains '\n') && !(cs.contains '\\') && !(cs.contains '"')

/-- Whether the text may stand between single quotes. -/
def plainLiteral (cs : List Char) : Bool :=
  !(cs.any isControlCode) && !(cs.contains '\n') && !(cs.contains '\'')

inductive Quoting where
  | basic | literal | longBasic | longLiteral
  deriving DecidableEq, Repr

namespace Quoting

def delimiter : Quoting → String
  | basic => "\""
  | literal => "'"
  | longBasic => "\"\"\""
  | longLiteral => "'''"

def ofText (cs : List Char) : Quoting :=
  let clean := !(cs.any isControlCode)
  if plainBasic cs then basic
  else if plainLiteral cs then literal
  else if clean && !(cs.contains '\\') && decide (longestRun '"' cs ≤ 2) then longBasic
  else if clean && decide (longestRun '\'' cs ≤ 2) then longLiteral
  else if cs.contains '\n' then longBasic
  else basic

end Quoting

/-- One character of a basic text, double quotes apart. -/
def escapeChar (long : Bool) (c : Char) : List Char :=
  match c with
  | '\x08' => ['\\', 'b']
  | '\t' => ['\\', 't']
  | '\n' => if long then ['\n'] else ['\\', 'n']
  | '\x0c' => ['\\', 'f']
  | '\r' => ['\\', 'r']
  | '\\' => ['\\', '\\']
  | _ =>
    if isControlCode c then '\\' :: 'u' :: Number.hexPadded Number.upperDigit 4 c.toNat
    else [c]

/-- The inside of a basic text. A short one escapes every double quote, a long one each third of a
run, so that no three stand together. The number counts the bare ones that stand before. -/
def escapeFrom (long : Bool) (bare : Nat) : List Char → List Char
  | [] => []
  | c :: cs =>
    if c == '"' then
      if long && decide (bare < 2) then '"' :: escapeFrom long (bare + 1) cs
      else '\\' :: '"' :: escapeFrom long 0 cs
    else escapeChar long c ++ escapeFrom long 0 cs

/-- A long text that has a line feed starts on a line of its own. -/
def quotedAs (q : Quoting) (cs : List Char) : String :=
  let opening := if cs.contains '\n' then q.delimiter ++ "\n" else q.delimiter
  match q with
  | .basic => q.delimiter ++ String.ofList (escapeFrom false 0 cs) ++ q.delimiter
  | .literal => q.delimiter ++ String.ofList cs ++ q.delimiter
  | .longBasic => opening ++ String.ofList (escapeFrom true 0 cs) ++ q.delimiter
  | .longLiteral => opening ++ String.ofList cs ++ q.delimiter

def quoted (s : String) : String := quotedAs (Quoting.ofText s.toList) s.toList

def isBareChar (c : Char) : Bool := c.isAlphanum || c == '_' || c == '-'

/-- A key is bare if it can be, and else a text on one line. -/
def key (s : String) : String :=
  let cs := s.toList
  if !cs.isEmpty && cs.all isBareChar then s
  else if plainBasic cs then quotedAs .basic cs
  else if plainLiteral cs then quotedAs .literal cs
  else quotedAs .basic cs

end Scaffold.Toml
