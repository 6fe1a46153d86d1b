import Mathlib.Data.List.Basic
import Scaffold.Number.Digits

/-!
Whole numbers as they are written. In decimal the digits have no leading zero and stand behind a
minus sign where the number is negative; in hexadecimal their number is fixed. Digits that are read
have the value of the number that was written.
-/

namespace Scaffold.Number

/-- The decimal digits of a number. -/
def decimal (n : Nat) : List Char := Nat.toDigits 10 n

/-- The ten decimal digits. -/
def decimalDigits : List Char := ['0', '1', '2', '3', '4', '5', '6', '7', '8', '9']

theorem mem_decimalDigits {c : Char} (hc : c.isDigit = true) : c ∈ decimalDigits := by
  have hcodes : ∀ n ≤ 57, 48 ≤ n → Char.ofNat n ∈ decimalDigits := by decide
  have hrange : 48 ≤ c.toNat ∧ c.toNat ≤ 57 := by
    simpa [Char.isDigit, UInt32.le_iff_toNat_le] using hc
  simpa using hcodes c.toNat hrange.2 hrange.1

theorem isDigit_of_mem_decimal {n : Nat} {c : Char} (h : c ∈ decimal n) : c.isDigit = true :=
  Nat.isDigit_of_mem_toDigits (by decide) (by decide) h

theorem decimal_ne_nil (n : Nat) : decimal n ≠ [] := Nat.toDigits_ne_nil

theorem exists_decimal_eq_cons (n : Nat) : ∃ d ds, decimal n = d :: ds ∧ d.isDigit = true := by
  obtain ⟨d, ds, h⟩ := List.exists_cons_of_ne_nil (decimal_ne_nil n)
  exact ⟨d, ds, h, isDigit_of_mem_decimal (h ▸ List.mem_cons_self)⟩

theorem ofDecimal_decimal (n : Nat) : ofDecimal (decimal n) = n := by
  have h := Nat.ofDigitChars_toDigits (b := 10) (n := n) (by decide) (by decide)
  rwa [Nat.ofDigitChars_eq_foldl] at h

theorem head?_decimal_ne_zero {n : Nat} (h : 0 < n) : (decimal n).head? ≠ some '0' := by
  induction n using Nat.strongRecOn with
  | ind n ih =>
    by_cases hn : n < 10
    · have hdigit : ∀ n < 10, 0 < n → (Nat.digitChar n) ≠ '0' := by decide
      simpa [decimal, Nat.toDigits_of_lt_base hn] using hdigit n hn h
    · have hhead := ih (n / 10) (by omega) (by omega)
      rw [decimal, Nat.toDigits_of_base_le (by decide) (by omega), List.head?_append]
      cases hd : (Nat.toDigits 10 (n / 10)).head? with
      | none => exact absurd (List.head?_eq_none_iff.mp hd) Nat.toDigits_ne_nil
      | some c =>
        rw [decimal, hd] at hhead
        simpa using hhead

/-- Only zero is written with a leading zero. -/
theorem decimal_eq_zero_cons {n : Nat} {r : List Char} (h : decimal n = '0' :: r) : r = [] := by
  rcases Nat.eq_zero_or_pos n with rfl | hn
  · exact (List.cons.inj h).2.symm
  · exact absurd (by rw [h, List.head?_cons]) (head?_decimal_ne_zero hn)

theorem toList_toString (n : Int) :
    (toString n).toList = if n < 0 then '-' :: decimal n.natAbs else decimal n.natAbs := by
  rw [Int.toString_eq_repr, Int.repr_eq_if]
  by_cases hn : n < 0
  · have hsign : ("-" : String).toList = ['-'] := rfl
    rw [if_neg (by omega), if_pos hn, String.toList_append, hsign, Nat.repr_eq_ofList_toDigits,
      String.toList_ofList, show (-n).toNat = n.natAbs by omega]
    rfl
  · rw [if_pos (by omega), if_neg hn, Nat.repr_eq_ofList_toDigits, String.toList_ofList,
      show n.toNat = n.natAbs by omega]
    rfl

theorem toList_toString_ne_nil (n : Int) : (toString n).toList ≠ [] := by
  rw [toList_toString]
  split
  · exact List.cons_ne_nil _ _
  · exact decimal_ne_nil _

theorem digit?_lowerDigit : ∀ v < 16, digit? 16 (lowerDigit v) = some v := by decide

theorem digit?_upperDigit : ∀ v < 16, digit? 16 (upperDigit v) = some v := by decide

theorem foldlM_hexPadded {digit : Nat → Char} (hdigit : ∀ v < 16, digit? 16 (digit v) = some v)
    {width n : Nat} (h : n < Nat.pow 16 width) :
    (hexPadded digit width n).foldlM (fun n c => (digit? 16 c).map (16 * n + ·)) 0 = some n := by
  induction width generalizing n with
  | zero =>
    obtain rfl : n = 0 := Nat.lt_one_iff.mp h
    rfl
  | succ width ih =>
    have hfront := ih (n := n / 16) (Nat.div_lt_of_lt_mul (Nat.mul_comm _ 16 ▸ h))
    rw [hexPadded, List.foldlM_append, hfront]
    simp only [Option.bind_eq_bind, Option.bind_some, List.foldlM_cons, List.foldlM_nil,
      hdigit (n % 16) (by omega), Option.map_some]
    exact congrArg some (Nat.div_add_mod n 16)

/-- A number that fits its hexadecimal digits is read back from them. -/
theorem digits?_hexPadded {digit : Nat → Char} (hdigit : ∀ v < 16, digit? 16 (digit v) = some v)
    {width n : Nat} (hwidth : 0 < width) (h : n < Nat.pow 16 width) :
    digits? 16 (hexPadded digit width n) = some n := by
  have hne : (hexPadded digit width n).isEmpty = false := by
    simp [← List.length_eq_zero_iff, length_hexPadded]
    omega
  rw [digits?, hne]
  exact foldlM_hexPadded hdigit h

/-- Decimal digits have the value of the number that they were written for. -/
theorem digits?_decimal (n : Nat) : digits? 10 (decimal n) = some n := by
  have hstep : ∀ c ∈ decimalDigits, digit? 10 c = some (decimalValue c) := by
    simp [decimalDigits, digit?, decimalValue]
  have hfold : ∀ (ds : List Char) (m : Nat), (∀ c ∈ ds, c.isDigit = true) →
      ds.foldlM (fun n c => (digit? 10 c).map (10 * n + ·)) m =
        some (ds.foldl (fun n d => 10 * n + decimalValue d) m) := by
    intro ds
    induction ds with
    | nil => exact fun m _ => rfl
    | cons d ds ih =>
      intro m hds
      obtain ⟨hd, hds⟩ := List.forall_mem_cons.mp hds
      rw [List.foldlM_cons, hstep d (mem_decimalDigits hd)]
      exact ih _ hds
  have hne : (decimal n).isEmpty = false := by simp [decimal_ne_nil]
  rw [digits?, hne]
  exact (hfold _ 0 fun c hc => isDigit_of_mem_decimal hc).trans
    (congrArg some (ofDecimal_decimal n))

end Scaffold.Number
