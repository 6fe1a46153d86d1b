import Scaffold.Yaml.Lexeme

/-!
A text as a list of tokens. Indentation becomes tokens that open and close blocks, and a key without
a mark of its own is recognised by the colon behind it: until then its place among the tokens is
kept as a candidate, for as long as the line and its first 1024 characters last.
-/

namespace Scaffold.Yaml

inductive Token where
  | directive (d : Directive)
  | documentStart | documentEnd
  | blockListStart | blockRecordStart | blockEnd
  | flowListStart | flowListEnd | flowRecordStart | flowRecordEnd
  | blockEntry | flowEntry
  | key | value
  | reference (name : String)
  | anchor (name : String)
  | tag (t : Tag)
  | scalar (style : Style) (text : String)
  deriving DecidableEq, Repr

/-- Where a key may turn out to have started. A required one is the first thing in its block. -/
structure Candidate where
  required : Bool
  position : Nat
  index : Nat
  line : Nat
  column : Nat

/-- How far the text has been read. `indent` is the column of the innermost block, and `outer` holds
those around it; `candidates` has an entry for each open bracket and one for the block, innermost
first. Tokens are kept last first. -/
structure Lexer where
  cursor : Cursor
  flow : Nat := 0
  indent : Int := -1
  outer : List Int := []
  keyAllowed : Bool := true
  candidates : List (Option Candidate) := [none]
  count : Nat := 0
  tokens : List Token := []

namespace Lexer

def inFlow (l : Lexer) : Bool := l.flow != 0

def push (l : Lexer) (t : Token) : Lexer :=
  { l with tokens := t :: l.tokens, count := l.count + 1 }

/-- Inserts a token at a position counted from the first. -/
def insert (l : Lexer) (position : Nat) (t : Token) : Lexer :=
  let later := l.tokens.take (l.count - position)
  { l with
    tokens := later ++ t :: l.tokens.drop (l.count - position)
    count := l.count + 1 }

def moveTo (l : Lexer) (c : Cursor) : Lexer := { l with cursor := c }

def allowKey (l : Lexer) (allowed : Bool) : Lexer := { l with keyAllowed := allowed }

def candidate (l : Lexer) : Option Candidate := l.candidates.head?.join

def setCandidate (l : Lexer) (k : Option Candidate) : Lexer :=
  { l with candidates := k :: l.candidates.drop 1 }

/-- Gives up the candidate, which must not be a required one. -/
def dropCandidate? (l : Lexer) : Option Lexer :=
  if l.candidate.any (·.required) then none else some (l.setCandidate none)

/-- Notes that a key may start here, in place of an earlier candidate. -/
def noteCandidate? (l : Lexer) : Option Lexer :=
  if l.keyAllowed then do
    let l ← l.dropCandidate?
    let c := l.cursor
    some (l.setCandidate (some
      { required := !l.inFlow && l.indent == (c.column : Int)
        position := l.count
        index := c.index
        line := c.line
        column := c.column }))
  else some l

/-- Gives up the candidates that lie on an earlier line or too far back. -/
def dropStale? (l : Lexer) : Option Lexer := do
  let kept ← l.candidates.mapM fun k =>
    match k with
    | none => some none
    | some k =>
      if k.line < l.cursor.line ∨ k.index + 1024 < l.cursor.index then
        if k.required then none else some none
      else some (some k)
  some { l with candidates := kept }

/-- Opens a block at a column further right than the current one. -/
def openBlock (l : Lexer) (column : Nat) (position : Option Nat) (t : Token) : Lexer :=
  if l.inFlow || decide ((column : Int) ≤ l.indent) then l
  else
    let l :=
      match position with
      | some p => l.insert p t
      | none => l.push t
    { l with indent := column, outer := l.indent :: l.outer }

/-- Closes the blocks further right than a column. -/
def closeBlocksTo (column : Int) : List Int → Lexer → Lexer
  | [], l => l
  | o :: os, l =>
    if column < l.indent then
      closeBlocksTo column os ({ l with indent := o, outer := os }.push .blockEnd)
    else l

def closeBlocks (l : Lexer) (column : Int) : Lexer :=
  if l.inFlow then l else closeBlocksTo column l.outer l

/-- Passes blanks, comments and line ends. A tab is a blank where no key may start. -/
def skipToToken : Nat → Lexer → Lexer
  | 0, l => l
  | fuel + 1, l =>
    let c := (l.cursor.skipWhile fun d =>
      d == ' ' || ((l.inFlow || !l.keyAllowed) && d == '\t')).skipComment
    match c.rest with
    | [] => l.moveTo c
    | d :: _ =>
      if isBreak d then
        skipToToken fuel ((l.moveTo c.nextLine).allowKey (!l.inFlow || l.keyAllowed))
      else l.moveTo c

/-- A byte order mark at the very start takes a column. -/
def skipMark (l : Lexer) : Lexer :=
  if l.cursor.index == 0 && l.cursor.rest.head? == some '\ufeff' then
    l.moveTo (l.cursor.advance 1)
  else l

/-- A token of one character, with the candidate given up and keys allowed behind it or not. -/
def sign? (l : Lexer) (t : Token) (keyBehind : Bool) : Option Lexer := do
  let l ← l.dropCandidate?
  some (((l.moveTo (l.cursor.advance 1)).allowKey keyBehind).push t)

def openFlow? (l : Lexer) (t : Token) : Option Lexer := do
  let l ← l.noteCandidate?
  let l := { l with flow := l.flow + 1, candidates := none :: l.candidates }
  some (((l.moveTo (l.cursor.advance 1)).allowKey true).push t)

def closeFlow? (l : Lexer) (t : Token) : Option Lexer := do
  let l ← l.dropCandidate?
  let l :=
    if l.inFlow then { l with flow := l.flow - 1, candidates := l.candidates.drop 1 } else l
  some (((l.moveTo (l.cursor.advance 1)).allowKey false).push t)

def blockEntry? (l : Lexer) : Option Lexer :=
  if l.inFlow then l.sign? .blockEntry true
  else if l.keyAllowed then
    (l.openBlock l.cursor.column none .blockListStart).sign? .blockEntry true
  else none

def markedKey? (l : Lexer) : Option Lexer :=
  if l.inFlow then l.sign? .key false
  else if l.keyAllowed then
    (l.openBlock l.cursor.column none .blockRecordStart).sign? .key true
  else none

/-- A colon makes a key of the candidate, or else closes a marked key. -/
def value? (l : Lexer) : Option Lexer :=
  match l.candidate with
  | some k =>
    let l := (l.insert k.position .key).openBlock k.column (some k.position) .blockRecordStart
    let l := (l.setCandidate none).allowKey false
    some ((l.moveTo (l.cursor.advance 1)).push .value)
  | none =>
    if l.inFlow then some (((l.moveTo (l.cursor.advance 1)).allowKey false).push .value)
    else if l.keyAllowed then
      let l := l.openBlock l.cursor.column none .blockRecordStart
      some (((l.moveTo (l.cursor.advance 1)).allowKey true).push .value)
    else none

/-- A token that may be the start of a key. -/
def keyStart? (l : Lexer) (read : Cursor → Option (Token × Cursor)) : Option Lexer := do
  let l ← l.noteCandidate?
  let (t, c) ← read l.cursor
  some (((l.allowKey false).moveTo c).push t)

def plainScalar? (l : Lexer) : Option Lexer := do
  let l ← l.noteCandidate?
  let p ← plain? l.inFlow l.indent l.cursor
  let l := (l.moveTo p.cursor).allowKey p.endsOnNewLine
  some (l.push (.scalar .plain (String.ofList p.text)))

def blockScalar? (l : Lexer) (literal : Bool) : Option Lexer := do
  let l ← l.dropCandidate?
  let (s, c) ← block? literal l.indent l.cursor
  let style := if literal then .literal else .folded
  some (((l.allowKey true).moveTo c).push (.scalar style (String.ofList s)))

/-- Closes everything for a token that stands between documents. -/
def topLevel? (l : Lexer) : Option Lexer := do
  some ((← (l.closeBlocks (-1)).dropCandidate?).allowKey false)

/-- Whether a plain scalar may start with `c` before `r`. -/
def startsPlain (inFlow : Bool) (c : Char) (r : List Char) : Bool :=
  if c == '-' then !(r.head?.any isSpaceOrTab)
  else if c == '?' || c == ':' then !inFlow && !gapAhead r
  else
    !(isGap c || isFlowMark c || c == '#' || c == '&' || c == '*' || c == '!' || c == '|' ||
      c == '>' || c == '\'' || c == '"' || c == '%' || c == '@' || c.toNat == 96)

/-- Reads the token that starts with `c`. -/
def token? (l : Lexer) (c : Char) (r : List Char) : Option Lexer :=
  let start := l.cursor.column == 0
  let indicator := l.inFlow || gapAhead r
  if start && c == '%' then do
    let l ← l.topLevel?
    let (d, cursor) ← directive? l.cursor
    some ((l.moveTo cursor).push (.directive d))
  else if l.cursor.atRule '-' then do
    let l ← l.topLevel?
    some ((l.moveTo (l.cursor.advance 3)).push .documentStart)
  else if l.cursor.atRule '.' then do
    let l ← l.topLevel?
    some ((l.moveTo (l.cursor.advance 3)).push .documentEnd)
  else if c == '[' then l.openFlow? .flowListStart
  else if c == '\x7b' then l.openFlow? .flowRecordStart
  else if c == ']' then l.closeFlow? .flowListEnd
  else if c == '\x7d' then l.closeFlow? .flowRecordEnd
  else if c == ',' then l.sign? .flowEntry true
  else if c == '-' && gapAhead r then l.blockEntry?
  else if c == '?' && indicator then l.markedKey?
  else if c == ':' && indicator then l.value?
  else if c == '*' then l.keyStart? fun c => (anchorName? c).map fun (n, c) => (.reference n, c)
  else if c == '&' then l.keyStart? fun c => (anchorName? c).map fun (n, c) => (.anchor n, c)
  else if c == '!' then l.keyStart? fun c => (tag? l.inFlow c).map fun (t, c) => (.tag t, c)
  else if c == '|' && !l.inFlow then l.blockScalar? true
  else if c == '>' && !l.inFlow then l.blockScalar? false
  else if c == '\'' || c == '"' then
    l.keyStart? fun d =>
      (quoted? (c == '"') d).map fun (s, d) => (.scalar .quoted (String.ofList s), d)
  else if startsPlain l.inFlow c r then l.plainScalar?
  else none

/-- Reads tokens to the end of the text, closes all blocks there and puts the tokens in order. -/
def run : Nat → Lexer → Option (List Token)
  | 0, _ => none
  | fuel + 1, l => do
    let l ← (skipToToken (l.cursor.rest.length + 1) l).dropStale?
    match l.cursor.rest with
    | [] => do
      let l ← (l.closeBlocks (-1)).dropCandidate?
      some l.tokens.reverse
    | c :: r => run fuel (← (l.closeBlocks l.cursor.column).token? c r)

end Lexer

/-- The tokens of a text, absent where it breaks the lexical rules. -/
def tokens? (s : String) : Option (List Token) :=
  let cs := s.toList
  if cs.all isAllowed then
    Lexer.run (cs.length + 1) (Lexer.skipMark { cursor := { rest := cs } })
  else none

end Scaffold.Yaml
