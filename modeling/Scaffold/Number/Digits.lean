/-!
Digits in a radix of at most thirty-six, read and written.
-/

namespace Scaffold.Number

/-- The value of a digit or letter, if it is below the radix. -/
def digit? (radix : Nat) (c : Char) : Option Nat :=
  let v :=
    if c.isDigit then some (c.toNat - 48)
    else if 'a' ≤ c ∧ c ≤ 'z' then some (c.toNat - 87)
    else if 'A' ≤ c ∧ c ≤ 'Z' then some (c.toNat - 55)
    else none
  v.filter (· < radix)

/-- The value of a nonempty run of digits. -/
def digits? (radix : Nat) (cs : List Char) : Option Nat :=
  if cs.isEmpty then none
  else cs.foldlM (fun n c => (digit? radix c).map (radix * n + ·)) 0

/-- The value of a character that is known to be a decimal digit. -/
def decimalValue (c : Char) : Nat := c.toNat - 48

/-- The value of decimal digits. -/
def ofDecimal (ds : List Char) : Nat := ds.foldl (fun n d => 10 * n + decimalValue d) 0

/-- The digit of a value, with small letters from ten. -/
def lowerDigit (n : Nat) : Char := Char.ofNat (if n < 10 then 48 + n else 87 + n)

/-- The digit of a value, with capital letters from ten. -/
def upperDigit (n : Nat) : Char := Char.ofNat (if n < 10 then 48 + n else 55 + n)

/-- Hexadecimal without leading zeros. -/
def hexDigits (digit : Nat → Char) (n : Nat) : List Char :=
  if n < 16 then [digit n] else hexDigits digit (n / 16) ++ [digit (n % 16)]
termination_by n

/-- Hexadecimal of a fixed width. -/
def hexPadded (digit : Nat → Char) : Nat → Nat → List Char
  | 0, _ => []
  | width + 1, n => hexPadded digit width (n / 16) ++ [digit (n % 16)]

theorem length_hexPadded (digit : Nat → Char) (width n : Nat) :
    (hexPadded digit width n).length = width := by
  induction width generalizing n with
  | zero => rfl
  | succ width ih => simp [hexPadded, ih]

end Scaffold.Number
