/-!
The ranges of whole numbers and of double precision, as far as a document may hold their values.
-/

namespace Scaffold.Number

/-- The number, if it fits 64 bits with a sign. -/
def signed? (n : Int) : Option Int64 :=
  if Int64.minValue.toInt ≤ n ∧ n ≤ Int64.maxValue.toInt then some (Int64.ofInt n) else none

/-- Whether the number fits 64 bits, with or without a sign. -/
def fitsWord (n : Int) : Bool := decide (Int64.minValue.toInt ≤ n) && decide (n < UInt64.size)

/-- Whether the number fits 128 bits, with or without a sign. -/
def fitsTwoWords (n : Int) : Bool :=
  decide (-(Nat.pow 2 127 : Nat) ≤ n) && decide (n < (Nat.pow 2 128 : Nat))

/-- What lies from here on rounds to no finite double; the largest of those is as far below as the
next power of two is above. -/
def doubleLimit : Nat := Nat.pow 2 1024 - Nat.pow 2 970

/-- The nearest number of 53 significant bits; a tie goes to the even one. -/
def roundToDouble (n : Nat) : Nat :=
  if n < Nat.pow 2 53 then n
  else
    let unit := Nat.pow 2 (n.log2 - 52)
    let q := n / unit
    let r := n % unit
    if unit < 2 * r ∨ (unit = 2 * r ∧ q % 2 = 1) then (q + 1) * unit else q * unit

end Scaffold.Number
