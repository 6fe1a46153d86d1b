import Mathlib.Tactic.Tauto
import Scaffold.Naming.Identifier

/-!
Facts of ASCII characters, each decided over the 128 of them, and words of the naming rules as
conditions on their characters.
-/

namespace Scaffold.Naming

theorem forall_ascii (p : Char → Prop) (h : ∀ n < 128, p (Char.ofNat n)) (c : Char)
    (hc : c.toNat < 128) : p c := by
  have hn := h c.toNat hc
  rwa [Char.ofNat_toNat] at hn

theorem toNat_lt_of_isWordChar {c : Char} (h : isWordChar c = true) : c.toNat < 128 := by
  change (decide ('A'.val ≤ c.val ∧ c.val ≤ 'Z'.val) || ('a'.val ≤ c.val && c.val ≤ 'z'.val) ||
    ('0'.val ≤ c.val && c.val ≤ '9'.val) || c == '_') = true at h
  simp only [Bool.or_eq_true, Bool.and_eq_true, decide_eq_true_eq, beq_iff_eq,
    UInt32.le_iff_toNat_le, Char.toNat_val] at h
  rcases h with h | rfl
  · have hZ : 'Z'.toNat = 90 := rfl
    have hz : 'z'.toNat = 122 := rfl
    have h9 : '9'.toNat = 57 := rfl
    omega
  · decide

theorem isWordChar_of_isAlpha {c : Char} (h : c.isAlpha = true) : isWordChar c = true := by
  simp [isWordChar, Char.isAlphanum, h]

theorem isWordChar_of_isDigit {c : Char} (h : c.isDigit = true) : isWordChar c = true := by
  simp [isWordChar, Char.isAlphanum, h]

/-- A character that may stand first is one of a word that is no digit. -/
theorem isHead_iff (c : Char) :
    (c.isAlpha = true ∨ c = '_') ↔ c.isDigit = false ∧ isWordChar c = true := by
  constructor
  · intro h
    have hword : isWordChar c = true := by
      rcases h with h | rfl
      · exact isWordChar_of_isAlpha h
      · rfl
    have hdigit := forall_ascii (fun d => d.isAlpha = true ∨ d = '_' → d.isDigit = false)
      (by decide +kernel) c (toNat_lt_of_isWordChar hword)
    exact ⟨hdigit h, hword⟩
  · rintro ⟨hdigit, hword⟩
    simpa [isWordChar, Char.isAlphanum, hdigit] using hword

/-- ASCII letters, digits and underscores, the first no digit, and more than a lone underscore. -/
def IsHandlerName (name : String) : Prop :=
  (∃ c rest, name.toList = c :: rest ∧ c.isDigit = false) ∧
    (∀ c ∈ name.toList, c.isAlphanum = true ∨ c = '_') ∧ name ≠ "_"

theorem isWord_cons_iff (c : Char) (cs : List Char) :
    isWord (c :: cs) = true ↔
      c.isDigit = false ∧ (∀ d ∈ c :: cs, isWordChar d = true) ∧ c :: cs ≠ ['_'] := by
  have hhead := isHead_iff c
  simp only [isWord, Bool.and_eq_true, Bool.or_eq_true, beq_iff_eq, List.all_eq_true,
    Bool.not_eq_true', Bool.and_eq_false_iff, List.isEmpty_eq_false_iff, beq_eq_false_iff_ne,
    List.mem_cons, forall_eq_or_imp, hhead, ne_eq, List.cons.injEq, not_and_or]
  tauto

theorem isWord_iff (name : String) : isWord name.toList = true ↔ IsHandlerName name := by
  have hlone : name = "_" ↔ name.toList = ['_'] := by
    rw [← String.toList_inj]
    rfl
  unfold IsHandlerName
  rw [Ne, hlone]
  cases name.toList with
  | nil => simp [isWord]
  | cons c cs =>
    rw [isWord_cons_iff]
    simp [isWordChar]

end Scaffold.Naming
