import Scaffold.Json.Number

/-!
Reading JSON. A text is one value between blanks, and at most 127 lists and records may be open at
once.
-/

namespace Scaffold.Json

def isSpace (c : Char) : Bool := c == ' ' || c == '\n' || c == '\t' || c == '\r'

def skipSpace (cs : List Char) : List Char := cs.dropWhile isSpace

/-- A number of four hexadecimal digits. -/
def hex4? (a b c d : Char) : Option Nat := Number.digits? 16 [a, b, c, d]

def isLeading (n : Nat) : Bool := decide (0xD800 ≤ n) && decide (n < 0xDC00)

def isTrailing (n : Nat) : Bool := decide (0xDC00 ≤ n) && decide (n < 0xE000)

/-- The character named by one letter behind a backslash. -/
def shortEscape? : Char → Option Char
  | '"' => some '"'
  | '\\' => some '\\'
  | '/' => some '/'
  | 'b' => some '\x08'
  | 'f' => some '\x0c'
  | 'n' => some '\n'
  | 'r' => some '\r'
  | 't' => some '\t'
  | _ => none

/-- The rest of a string whose opening quote has been read. Surrogates come in pairs only. -/
def stringTail : List Char → Option (List Char × List Char)
  | [] => none
  | '"' :: r => some ([], r)
  | '\\' :: 'u' :: a :: b :: c :: d :: r => do
    let n ← hex4? a b c d
    if isTrailing n then none
    else if isLeading n then
      match r with
      | '\\' :: 'u' :: e :: f :: g :: h :: r =>
        let m ← hex4? e f g h
        if isTrailing m then
          let (s, r) ← stringTail r
          some (Char.ofNat (0x10000 + 0x400 * (n - 0xD800) + (m - 0xDC00)) :: s, r)
        else none
      | _ => none
    else
      let (s, r) ← stringTail r
      some (Char.ofNat n :: s, r)
  | '\\' :: c :: r => do
    let e ← shortEscape? c
    let (s, r) ← stringTail r
    some (e :: s, r)
  | c :: r =>
    if c.toNat < 32 || c == '\\' then none
    else do
      let (s, r) ← stringTail r
      some (c :: s, r)

/-- A key and the colon behind it. -/
def key (cs : List Char) : Option (String × List Char) :=
  match skipSpace cs with
  | '"' :: r => do
    let (s, r) ← stringTail r
    match skipSpace r with
    | ':' :: r => some (String.ofList s, r)
    | _ => none
  | _ => none

mutual

/-- The value at the head of a text, with room for so many open lists and records. -/
def value : Nat → Nat → List Char → Option (Json × List Char)
  | 0, _, _ => none
  | fuel + 1, room, cs =>
    match skipSpace cs with
    | '"' :: r => do
      let (s, r) ← stringTail r
      some (.text (String.ofList s), r)
    | '[' :: r =>
      match room with
      | 0 => none
      | room + 1 =>
        match skipSpace r with
        | ']' :: r => some (.list [], r)
        | _ => do
          let (xs, r) ← items fuel room r
          some (.list xs, r)
    | '{' :: r =>
      match room with
      | 0 => none
      | room + 1 =>
        match skipSpace r with
        | '}' :: r => some (.record [], r)
        | _ => do
          let (ms, r) ← members fuel room r
          some (.record ms, r)
    | 't' :: 'r' :: 'u' :: 'e' :: r => some (.flag true, r)
    | 'f' :: 'a' :: 'l' :: 's' :: 'e' :: r => some (.flag false, r)
    | 'n' :: 'u' :: 'l' :: 'l' :: r => some (.null, r)
    | r => number r

/-- One or more values between commas, and the closing bracket. -/
def items : Nat → Nat → List Char → Option (List Json × List Char)
  | 0, _, _ => none
  | fuel + 1, room, cs => do
    let (x, r) ← value fuel room cs
    match skipSpace r with
    | ',' :: r => do
      let (xs, r) ← items fuel room r
      some (x :: xs, r)
    | ']' :: r => some ([x], r)
    | _ => none

/-- One or more members between commas, and the closing brace. -/
def members : Nat → Nat → List Char → Option (List (String × Json) × List Char)
  | 0, _, _ => none
  | fuel + 1, room, cs => do
    let (k, r) ← key cs
    let (x, r) ← value fuel room r
    match skipSpace r with
    | ',' :: r => do
      let (ms, r) ← members fuel room r
      some ((k, x) :: ms, r)
    | '}' :: r => some ([(k, x)], r)
    | _ => none

end

/-- How many lists and records may be open at once. -/
def nestingLimit : Nat := 127

def parse? (s : String) : Option Json := do
  let cs := s.toList
  let (v, r) ← value (2 * cs.length + 2) nestingLimit cs
  if (skipSpace r).isEmpty then some v else none

end Scaffold.Json
