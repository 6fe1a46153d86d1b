import Scaffold.Number.Digits
import Scaffold.Number.Limits

/-!
What an unquoted scalar means: nothing, a truth value, a number, or else text. Numbers are decimal,
hexadecimal, octal or binary; digits behind a leading zero are text.
-/

namespace Scaffold.Yaml

open Number

def isNullWord (s : String) : Bool := ["null", "Null", "NULL", "~"].contains s

def flagWord? (s : String) : Option Bool :=
  if ["true", "True", "TRUE"].contains s then some true
  else if ["false", "False", "FALSE"].contains s then some false
  else none

def isSign (c : Char) : Bool := c == '+' || c == '-'

def dropSign : List Char → List Char
  | c :: r => if isSign c then r else c :: r
  | [] => []

/-- Digits behind a leading zero, with or without a sign. -/
def hasLeadingZero (cs : List Char) : Bool :=
  match dropSign cs with
  | '0' :: d :: r => (d :: r).all Char.isDigit
  | _ => false

/-- Digits behind a marker of their radix. -/
def marked? : List Char → Option Nat
  | '0' :: 'x' :: r => digits? 16 r
  | '0' :: 'o' :: r => digits? 8 r
  | '0' :: 'b' :: r => digits? 2 r
  | _ => none

/-- Digits behind a marker, or decimal ones. -/
def magnitude? (cs : List Char) : Option Nat :=
  match marked? cs with
  | some n => some n
  | none => if hasLeadingZero cs then none else digits? 10 cs

/-- A whole number, perhaps behind a sign. -/
def whole? (s : String) : Option Int :=
  match s.toList with
  | '-' :: r => (magnitude? r).map fun n => -(n : Int)
  | '+' :: r => (magnitude? r).map fun n => (n : Int)
  | r => (magnitude? r).map fun n => (n : Int)

/-- The digits around a decimal point, at least one of them, and what follows. -/
def mantissa? (cs : List Char) : Option (List Char × List Char × List Char) :=
  let units := cs.takeWhile Char.isDigit
  let r := cs.dropWhile Char.isDigit
  let (fraction, r) :=
    match r with
    | '.' :: r => (r.takeWhile Char.isDigit, r.dropWhile Char.isDigit)
    | r => ([], r)
  if units.isEmpty && fraction.isEmpty then none else some (units, fraction, r)

def exponent? : List Char → Option Int
  | [] => some 0
  | e :: r =>
    if e == 'e' || e == 'E' then
      (digits? 10 (dropSign r)).map fun n => if r.head? = some '-' then -(n : Int) else (n : Int)
    else none

/-- Whether `m * 10 ^ e` rounds to a finite double. Values below the square root of the limit, or
far beyond it, are told by their exponents. -/
def staysFinite (m : Nat) (e : Int) : Bool :=
  if m = 0 ∨ (e < 0 ∧ (m.log2 : Int) + 3 * e < 512) then true
  else if 400 < e then false
  else decide (m * Nat.pow 10 e.toNat < Number.doubleLimit * Nat.pow 10 (-e).toNat)

def isFiniteDecimal (cs : List Char) : Bool :=
  match mantissa? (dropSign cs) with
  | none => false
  | some (units, fraction, r) =>
    match digits? 10 (units ++ fraction), exponent? r with
    | some m, some e => staysFinite m (e - fraction.length)
    | _, _ => false

def isReal (s : String) : Bool :=
  [".inf", ".Inf", ".INF", "+.inf", "+.Inf", "+.INF", "-.inf", "-.Inf", "-.INF", ".nan", ".NaN",
    ".NAN"].contains s || isFiniteDecimal s.toList

/-- The meaning of an unquoted scalar. `wide` numbers are whole but need more than 64 bits. -/
inductive Meaning where
  | null
  | flag (b : Bool)
  | whole (n : Int)
  | wide
  | real
  | text
  deriving DecidableEq, Repr

/-- Whole numbers of 64 bits, with or without sign, then those of 128. -/
def wholeMeaning? (s : String) : Option Meaning :=
  match whole? s with
  | none => none
  | some n =>
    if Number.fitsWord n then some (.whole n)
    else if Number.fitsTwoWords n then some .wide
    else none

def meaning (s : String) : Meaning :=
  if s.isEmpty || isNullWord s then .null
  else
    match flagWord? s with
    | some b => .flag b
    | none =>
      match wholeMeaning? s with
      | some m => m
      | none => if !(hasLeadingZero s.toList) && isReal s then .real else .text

end Scaffold.Yaml
