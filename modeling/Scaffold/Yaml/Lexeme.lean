import Scaffold.Yaml.Cursor
import Scaffold.Yaml.Scalar

/-!
The scalars and names of the YAML format, each read from a cursor on its first character. All
readers are absent on a text that breaks the rules of the format.
-/

namespace Scaffold.Yaml

open Number

inductive Style where
  | plain | quoted | literal | folded
  deriving DecidableEq, Repr

/-- Blanks before the first break, and the breaks in order; blanks after a break only indent. -/
structure Gap where
  blanks : List Char := []
  breaks : List Char := []

namespace Gap

/-- A gap within a line stands for itself. A single line feed is a blank; of more breaks a leading
line feed is dropped. -/
def text (g : Gap) : List Char :=
  match g.breaks with
  | [] => g.blanks
  | ['\n'] => [' ']
  | '\n' :: more => more
  | all => all

end Gap

/-- Passes the gap at the cursor; a tab left of `margin` on a new line is refused. -/
def gap : Nat → Nat → Gap → Cursor → Option (Gap × Cursor)
  | 0, _, _, _ => none
  | fuel + 1, margin, g, c =>
    match c.rest with
    | [] => some (g, c)
    | d :: _ =>
      if isSpaceOrTab d then
        if g.breaks.isEmpty then gap fuel margin { g with blanks := g.blanks ++ [d] } (c.advance 1)
        else if d == '\t' && decide (c.column < margin) then none
        else gap fuel margin g (c.advance 1)
      else if isBreak d then
        gap fuel margin { g with breaks := g.breaks ++ [normalBreak d] } c.nextLine
      else some (g, c)

def isFlowMark (c : Char) : Bool := c == ',' || c == '[' || c == ']' || c == '{' || c == '}'

/-- A run without gaps. It ends before a colon that a gap follows, and inside brackets before a
bracket or comma, where a colon must not be followed by one of these or a question mark. -/
def plainRun (inFlow : Bool) : List Char → Option (List Char)
  | [] => some []
  | c :: r =>
    if isGap c then some []
    else if inFlow && c == ':' && r.head?.any (fun d => isFlowMark d || d == '?') then none
    else if c == ':' && gapAhead r then some []
    else if inFlow && isFlowMark c then some []
    else (plainRun inFlow r).map (c :: ·)

/-- What a plain scalar reads besides its text: whether it ended behind a line break. -/
structure Plain where
  text : List Char
  endsOnNewLine : Bool
  cursor : Cursor

/-- Runs and the gaps between them. `pending` is the gap before the next run; it belongs to the
scalar only if a run follows. -/
def plainRuns : Nat → Bool → Int → Gap → Cursor → Option Plain
  | 0, _, _, _, _ => none
  | fuel + 1, inFlow, indent, pending, c =>
    let stop := some { text := [], endsOnNewLine := !pending.breaks.isEmpty, cursor := c }
    if c.atDocumentMark || c.rest.head? == some '#' then stop
    else do
      let run ← plainRun inFlow c.rest
      let after := c.advance run.length
      let joined := if run.isEmpty then [] else pending.text ++ run
      let left := if run.isEmpty then pending else {}
      match after.rest with
      | d :: _ =>
        if isGap d then
          let (g, next) ← gap (after.rest.length + 1) (indent + 1).toNat left after
          if !inFlow && decide ((next.column : Int) ≤ indent) then
            some { text := joined, endsOnNewLine := !g.breaks.isEmpty, cursor := next }
          else do
            let tail ← plainRuns fuel inFlow indent g next
            some { tail with text := joined ++ tail.text }
        else some { text := joined, endsOnNewLine := !left.breaks.isEmpty, cursor := after }
      | [] => some { text := joined, endsOnNewLine := !left.breaks.isEmpty, cursor := after }

def plain? (inFlow : Bool) (indent : Int) (c : Cursor) : Option Plain :=
  plainRuns (c.rest.length + 1) inFlow indent {} c

/-- The character named by one letter behind a backslash. -/
def shortEscape? : Char → Option Char
  | '0' => some '\x00'
  | 'a' => some '\x07'
  | 'b' => some '\x08'
  | 't' => some '\t'
  | '\t' => some '\t'
  | 'n' => some '\n'
  | 'v' => some '\x0b'
  | 'f' => some '\x0c'
  | 'r' => some '\r'
  | 'e' => some '\x1b'
  | ' ' => some ' '
  | '"' => some '"'
  | '/' => some '/'
  | '\\' => some '\\'
  | 'N' => some '\u0085'
  | '_' => some '\u00a0'
  | 'L' => some '\u2028'
  | 'P' => some '\u2029'
  | _ => none

/-- How many hexadecimal digits follow the letter. -/
def escapeWidth? : Char → Option Nat
  | 'x' => some 2
  | 'u' => some 4
  | 'U' => some 8
  | _ => none

/-- The character that an escape names, and how many characters the escape takes. -/
def escape? : List Char → Option (Char × Nat)
  | '\\' :: c :: r =>
    match shortEscape? c with
    | some e => some (e, 2)
    | none => do
      let width ← escapeWidth? c
      let code := r.take width
      let n ← digits? 16 code
      if code.length = width ∧ n.isValidChar then some (Char.ofNat n, 2 + width) else none
  | _ => none

/-- What ends a run of a quoted scalar: the quote, a gap, or an escaped line break. -/
inductive RunEnd where
  | quote | gap | escapedBreak
  deriving DecidableEq

/-- A run without gaps of a quoted scalar, its text and its end. -/
def quotedRun : Nat → Bool → Cursor → Option (List Char × RunEnd × Cursor)
  | 0, _, _ => none
  | fuel + 1, double, c =>
    match c.rest with
    | [] => some ([], .gap, c)
    | d :: r =>
      if isGap d then some ([], .gap, c)
      else if !double && d == '\'' then
        if r.head? == some '\'' then do
          let (s, e, c) ← quotedRun fuel double (c.advance 2)
          some ('\'' :: s, e, c)
        else some ([], .quote, c.advance 1)
      else if double && d == '"' then some ([], .quote, c.advance 1)
      else if double && d == '\\' then
        if r.head?.any isBreak then some ([], .escapedBreak, (c.advance 1).nextLine)
        else do
          let (x, n) ← escape? c.rest
          let (s, e, c) ← quotedRun fuel double (c.advance n)
          some (x :: s, e, c)
      else do
        let (s, e, c) ← quotedRun fuel double (c.advance 1)
        some (d :: s, e, c)

/-- The gap behind an escaped break. All breaks in it count, and blanks do not. -/
def gapAfterEscape : Nat → Cursor → List Char × Cursor
  | 0, c => ([], c)
  | fuel + 1, c =>
    match c.rest with
    | [] => ([], c)
    | d :: _ =>
      if isSpaceOrTab d then gapAfterEscape fuel (c.advance 1)
      else if isBreak d then
        let (s, c) := gapAfterEscape fuel c.nextLine
        (normalBreak d :: s, c)
      else ([], c)

def quotedRuns : Nat → Bool → Cursor → Option (List Char × Cursor)
  | 0, _, _ => none
  | fuel + 1, double, c =>
    if c.atDocumentMark || c.rest.isEmpty then none
    else do
      let (run, e, c) ← quotedRun (c.rest.length + 1) double c
      match e with
      | .quote => some (run, c)
      | .gap => do
        let (g, c) ← gap (c.rest.length + 1) 0 {} c
        let (s, c) ← quotedRuns fuel double c
        some (run ++ g.text ++ s, c)
      | .escapedBreak => do
        let (g, c) := gapAfterEscape (c.rest.length + 1) c
        let (s, c) ← quotedRuns fuel double c
        some (run ++ g ++ s, c)

/-- The scalar whose opening quote is at the cursor. -/
def quoted? (double : Bool) (c : Cursor) : Option (List Char × Cursor) :=
  quotedRuns (c.rest.length + 1) double (c.advance 1)

inductive Chomping where
  | strip | clip | keep
  deriving DecidableEq

def chomping? : List Char → Option Chomping
  | '+' :: _ => some .keep
  | '-' :: _ => some .strip
  | _ => none

/-- A digit from one to nine. -/
def increment? : List Char → Option Nat
  | d :: _ => if d.isDigit && d != '0' then some (d.toNat - 48) else none
  | [] => none

/-- The marks behind the opening sign, in either order. -/
def blockHeader? (c : Cursor) : Option (Chomping × Option Nat × Cursor) :=
  match chomping? c.rest with
  | some k =>
    let c := c.advance 1
    match increment? c.rest with
    | some n => some (k, some n, c.advance 1)
    | none => if c.rest.head? == some '0' then none else some (k, none, c)
  | none =>
    match increment? c.rest with
    | some n =>
      let c := c.advance 1
      match chomping? c.rest with
      | some k => some (k, some n, c.advance 1)
      | none => some (.clip, some n, c)
    | none => if c.rest.head? == some '0' then none else some (.clip, none, c)

/-- Empty lines before the next line of text, and the deepest column that blanks reach. Blanks up to
`margin`, where it is known, are indentation, and a tab among them is refused. -/
def emptyLines : Nat → Option Nat → Nat → Cursor → Option (List Char × Nat × Cursor)
  | 0, _, _, _ => none
  | fuel + 1, margin, deepest, c =>
    let blanks := (c.rest.takeWhile (· == ' ')).length
    let c := c.advance (match margin with
      | some m => min blanks (m - c.column)
      | none => blanks)
    let deepest := max deepest c.column
    match c.rest with
    | [] => some ([], deepest, c)
    | d :: _ =>
      if d == '\t' && margin.all (fun m => decide (c.column < m)) then none
      else if isBreak d then do
        let (s, deepest, c) ← emptyLines fuel margin deepest c.nextLine
        some (normalBreak d :: s, deepest, c)
      else some ([], deepest, c)

/-- The lines of a block scalar at `margin`. `last` is the break behind the line before, `empty` the
breaks of the empty lines since, and `deeper` tells whether the line before began with a blank. -/
def blockLines : Nat → Bool → Chomping → Nat → List Char → List Char → Bool → Cursor →
    Option (List Char × Cursor)
  | 0, _, _, _, _, _, _, _ => none
  | fuel + 1, literal, chomping, margin, last, empty, deeper, c =>
    if c.column == margin && !c.rest.isEmpty then do
      let blank := c.rest.head?.any isSpaceOrTab
      let folds := !literal && last == ['\n'] && !deeper && !blank
      let joint := if folds then (if empty.isEmpty then [' '] else []) else last
      let (line, c) := c.takeWhile fun d => !isBreak d
      let last := (c.rest.head?.map normalBreak).toList
      let (empty', _, c) ← emptyLines (c.rest.length + 1) (some margin) 0 c.nextLine
      let (s, c) ← blockLines fuel literal chomping margin last empty' blank c
      some (joint ++ empty ++ line ++ s, c)
    else
      let last := if chomping == .strip then [] else last
      some (last ++ (if chomping == .keep then empty else []), c)

/-- The scalar whose opening sign is at the cursor, inside a block of the given indent. -/
def block? (literal : Bool) (indent : Int) (c : Cursor) : Option (List Char × Cursor) := do
  let (chomping, increment, c) ← blockHeader? (c.advance 1)
  let c ← c.finishLine?
  let known := increment.map fun n => (max indent 0).toNat + n
  let (empty, deepest, c) ← emptyLines (c.rest.length + 1) known 0 c
  let margin := known.getD (max 1 (max deepest (indent + 1).toNat))
  blockLines (c.rest.length + 1) literal chomping margin [] empty false c

/-- The name behind the sign of an anchor or alias. -/
def anchorName? (c : Cursor) : Option (String × Cursor) :=
  let (name, c) := (c.advance 1).takeWhile isNameChar
  let ended := c.rest.head?.all fun d =>
    isGap d || d == '?' || d == ':' || d == ',' || d == ']' || d == '}' || d == '%' || d == '@' ||
      d.toNat == 96
  if name.isEmpty || !ended then none else some (String.ofList name, c)

def isUriChar (verbatim : Bool) (c : Char) : Bool :=
  isNameChar c || c == ';' || c == '/' || c == '?' || c == ':' || c == '@' || c == '&' ||
    c == '=' || c == '+' || c == '$' || c == '.' || c == '%' || c == '!' || c == '~' || c == '*' ||
    c == '\'' || c == '(' || c == ')' || (verbatim && (c == ',' || c == '[' || c == ']'))

/-- A byte written as a percent sign and two hexadecimal digits. -/
def uriByte? : List Char → Option (Nat × List Char)
  | '%' :: a :: b :: r => (digits? 16 [a, b]).map (·, r)
  | _ => none

/-- How many bytes the character that starts with this byte takes. -/
def byteWidth? (n : Nat) : Option Nat :=
  if n < 0x80 then some 1
  else if 0xC0 ≤ n ∧ n < 0xE0 then some 2
  else if 0xE0 ≤ n ∧ n < 0xF0 then some 3
  else if 0xF0 ≤ n ∧ n < 0xF8 then some 4
  else none

def moreBytes : Nat → List Char → Option (List Nat × List Char)
  | 0, r => some ([], r)
  | k + 1, r => do
    let (n, r) ← uriByte? r
    if 0x80 ≤ n ∧ n < 0xC0 then
      let (ns, r) ← moreBytes k r
      some (n :: ns, r)
    else none

/-- The bytes that a tag spells, its percent escapes decoded. -/
def uriBytes : Nat → List Char → Option (List UInt8)
  | 0, _ => none
  | _ + 1, [] => some []
  | fuel + 1, '%' :: r => do
    let (n, r) ← uriByte? ('%' :: r)
    let (ns, r) ← moreBytes ((← byteWidth? n) - 1) r
    return (n :: ns).map UInt8.ofNat ++ (← uriBytes fuel r)
  | fuel + 1, c :: r => do return (String.singleton c).toUTF8.toList ++ (← uriBytes fuel r)

/-- The bytes of the tag characters at the cursor, up to a zero byte, and whether there are no such
characters. -/
def uri? (verbatim : Bool) (c : Cursor) : Option (List UInt8 × Bool × Cursor) := do
  let (raw, c) := c.takeWhile (isUriChar verbatim)
  let bytes ← uriBytes (raw.length + 1) raw
  some (bytes.takeWhile (· != 0), raw.isEmpty, c)

/-- A handle: an exclamation mark, or a name between two of them. -/
def tagHandle (c : Cursor) : List Char × Cursor :=
  let (name, c) := (c.advance 1).takeWhile isNameChar
  if c.rest.head? == some '!' then ('!' :: name ++ ['!'], c.advance 1) else ('!' :: name, c)

/-- A tag as a handle and the bytes behind it. A handle of no characters stands for a tag given in
full. -/
structure Tag where
  handle : String
  suffix : List UInt8
  deriving DecidableEq, Repr

def endsTag (inFlow : Bool) (c : Cursor) : Bool :=
  gapAhead c.rest || (inFlow && c.rest.head? == some ',')

def tag? (inFlow : Bool) (c : Cursor) : Option (Tag × Cursor) := do
  let (tag, c) ←
    (if (c.rest.drop 1).head? == some '<' then do
      let (suffix, isEmpty, c) ← uri? true (c.advance 2)
      if isEmpty || c.rest.head? != some '>' then none
      else some (({ handle := "", suffix } : Tag), c.advance 1)
    else
      let (handle, c) := tagHandle c
      if 1 < handle.length && handle.getLast? == some '!' then do
        let (suffix, isEmpty, c) ← uri? false c
        if isEmpty then none else some ({ handle := String.ofList handle, suffix }, c)
      else do
        let (more, _, c) ← uri? false c
        let suffix := (String.ofList (handle.drop 1)).toUTF8.toList ++ more
        if suffix.isEmpty then some ({ handle := "", suffix := "!".toUTF8.toList }, c)
        else some ({ handle := "!", suffix }, c))
  if endsTag inFlow c then some (tag, c) else none

/-- A directive; the version of a text it speaks of must be one of the first major number. -/
inductive Directive where
  | version (major minor : Nat)
  | tag (handle : String) (lead : List UInt8)
  deriving DecidableEq, Repr

/-- A number of at most nine digits. -/
def versionNumber? (c : Cursor) : Option (Nat × Cursor) :=
  let (ds, c) := c.takeWhile Char.isDigit
  if ds.length ≤ 9 then (digits? 10 ds).map (·, c) else none

def directive? (c : Cursor) : Option (Directive × Cursor) := do
  let (name, c) := (c.advance 1).takeWhile isNameChar
  if !gapAhead c.rest then none
  else
    let c := c.skipWhile isSpaceOrTab
    let (d, c) ←
      (if name == "YAML".toList then do
        let (major, c) ← versionNumber? c
        if c.rest.head? != some '.' then none
        else
          let (minor, c) ← versionNumber? (c.advance 1)
          some (Directive.version major minor, c)
      else if name == "TAG".toList then
        if c.rest.head? != some '!' then none
        else
          let (handle, c) := tagHandle c
          if handle.length != 1 && handle.getLast? != some '!' then none
          else if !(c.rest.head?.any isSpaceOrTab) then none
          else do
            let (lead, isEmpty, c) ← uri? true (c.skipWhile isSpaceOrTab)
            if isEmpty || !gapAhead c.rest then none
            else some (.tag (String.ofList handle) lead, c)
      else none)
    some (d, ← c.finishLine?)

end Scaffold.Yaml
