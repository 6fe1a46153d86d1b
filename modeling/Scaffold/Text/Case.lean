import Scaffold.Text.CaseTable

/-!
Letter case over the whole character set. One letter may have a form of several characters, so the
case maps give lists. ASCII is decided by arithmetic and everything past it by the table.
-/

namespace Scaffold.Text

open CaseTable

def inRun (n : Nat) (run : Nat × Nat × Nat) : Bool :=
  decide (run.1 ≤ n) && decide (n ≤ run.2.1) && (n - run.1) % run.2.2 == 0

def isUpper (c : Char) : Bool :=
  if c.toNat < 128 then c.isUpper else upperRuns.any (inRun c.toNat)

def isLower (c : Char) : Bool :=
  if c.toNat < 128 then c.isLower else lowerRuns.any (inRun c.toNat)

/-- The form of a code point past ASCII, looked up first among those of several characters. -/
def mapped (words : List (Nat × List Nat)) (runs : List (Nat × Nat × Nat × Nat)) (c : Char) :
    List Char :=
  match words.lookup c.toNat with
  | some word => word.map Char.ofNat
  | none =>
    match runs.find? fun run => inRun c.toNat (run.1, run.2.1, run.2.2.1) with
    | some run => [Char.ofNat (run.2.2.2 + (c.toNat - run.1))]
    | none => [c]

def upper (c : Char) : List Char :=
  if c.toNat < 128 then [c.toUpper] else mapped toUpperWords toUpperRuns c

def lower (c : Char) : List Char :=
  if c.toNat < 128 then [c.toLower] else mapped toLowerWords toLowerRuns c

def lowerText (s : String) : String := String.ofList (s.toList.flatMap lower)

/-- Equality up to the case of ASCII letters. -/
def sameAsciiLetters (s t : String) : Bool :=
  s.toList.map Char.toLower == t.toList.map Char.toLower

end Scaffold.Text
