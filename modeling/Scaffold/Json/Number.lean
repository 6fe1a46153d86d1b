import Scaffold.Json.Basic
import Scaffold.Number.Digits

/-!
JSON numbers. A number that is not whole must still lie in the range of double precision: its digits
are gathered into 64 bits as far as they fit, the rest scale it, and the product of this significand
and its power of ten, each rounded to 53 bits, must stay below the largest finite value.
-/

namespace Scaffold.Json

open Number

def digitsOf (cs : List Char) : List Char × List Char :=
  (cs.takeWhile Char.isDigit, cs.dropWhile Char.isDigit)

/-- Appends digits to a significand while it fits 64 bits; the digits left over come back too. -/
def gather (n : Nat) : List Char → Nat × List Char
  | [] => (n, [])
  | d :: ds =>
    let next := 10 * n + decimalValue d
    if next < UInt64.size then gather next ds else (n, d :: ds)

/-- Whether `significand * 10 ^ exponent` is beyond every finite double. -/
def beyondDouble (significand : Nat) (exponent : Int) : Bool :=
  if exponent < 0 ∨ significand = 0 then false
  else if 308 < exponent then true
  else
    decide (doubleLimit ≤
      roundToDouble significand * roundToDouble (Nat.pow 10 exponent.toNat))

structure Numeral where
  negative : Bool
  whole : List Char
  fraction : Option (List Char)
  exponent : Option (Char × List Char × List Char)

namespace Numeral

def exponentValue (n : Numeral) : Int :=
  match n.exponent with
  | none => 0
  | some (_, sign, ds) => if sign = ['-'] then -(ofDecimal ds : Int) else ofDecimal ds

def isOutOfRange (n : Numeral) : Bool :=
  let (s, dropped) := gather 0 n.whole
  let fraction := n.fraction.getD []
  let (t, rest) := gather s fraction
  beyondDouble t (dropped.length - (fraction.length - rest.length : Nat) + n.exponentValue)

def spelling (n : Numeral) : String :=
  String.ofList <|
    (if n.negative then ['-'] else []) ++ n.whole ++
      (match n.fraction with
        | some ds => '.' :: ds
        | none => []) ++
      (match n.exponent with
        | some (e, sign, ds) => e :: sign ++ ds
        | none => [])

/-- The value of a numeral, unless it is out of range. -/
def value? (n : Numeral) : Option Json :=
  let k : Int := ofDecimal n.whole
  let k := if n.negative then -k else k
  if n.fraction.isNone && n.exponent.isNone && !(n.negative && k == 0) && fitsWord k then
    some (.whole k)
  else if n.isOutOfRange then none
  else some (.decimal n.spelling)

end Numeral

def fractionPart : List Char → Option (Option (List Char) × List Char)
  | '.' :: r =>
    let (ds, r) := digitsOf r
    if ds.isEmpty then none else some (some ds, r)
  | r => some (none, r)

def exponentPart : List Char → Option (Option (Char × List Char × List Char) × List Char)
  | [] => some (none, [])
  | e :: r =>
    if e == 'e' || e == 'E' then
      let (sign, r) :=
        match r with
        | '+' :: r => (['+'], r)
        | '-' :: r => (['-'], r)
        | r => ([], r)
      let (ds, r) := digitsOf r
      if ds.isEmpty then none else some (some (e, sign, ds), r)
    else some (none, e :: r)

/-- The numeral at the head of a text. Its whole part has no leading zero. -/
def numeral? (cs : List Char) : Option (Numeral × List Char) := do
  let (negative, r) :=
    match cs with
    | '-' :: r => (true, r)
    | r => (false, r)
  let (ds, r) := digitsOf r
  if ds.isEmpty || (ds.head? == some '0' && ds.length != 1) then none
  else
    let (fraction, r) ← fractionPart r
    let (exponent, r) ← exponentPart r
    some ({ negative, whole := ds, fraction, exponent }, r)

def number (cs : List Char) : Option (Json × List Char) := do
  let (n, r) ← numeral? cs
  some (← n.value?, r)

end Scaffold.Json
