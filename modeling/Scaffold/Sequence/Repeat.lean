/-!
The first repetition in a list.
-/

namespace Scaffold

variable {α : Type} [DecidableEq α]

/-- The first element that was seen before or occurs among those in front of it. -/
def firstRepeatAfter? (seen : List α) : List α → Option α
  | [] => none
  | x :: xs => if x ∈ seen then some x else firstRepeatAfter? (x :: seen) xs

/-- The first element that occurs among those in front of it. -/
def firstRepeat? (xs : List α) : Option α := firstRepeatAfter? [] xs

theorem firstRepeatAfter?_eq_none_iff (seen xs : List α) :
    firstRepeatAfter? seen xs = none ↔ xs.Nodup ∧ ∀ x ∈ xs, x ∉ seen := by
  induction xs generalizing seen with
  | nil => simp [firstRepeatAfter?]
  | cons x xs ih =>
    by_cases h : x ∈ seen
    · simp [firstRepeatAfter?, h]
    · simp only [firstRepeatAfter?, h, if_false, ih, List.nodup_cons, List.mem_cons]
      grind

theorem firstRepeat?_eq_none_iff (xs : List α) :
    firstRepeat? xs = none ↔ xs.Nodup := by
  simp [firstRepeat?, firstRepeatAfter?_eq_none_iff]

theorem two_le_count_of_firstRepeatAfter? {seen xs : List α} {x : α}
    (h : firstRepeatAfter? seen xs = some x) :
    x ∈ xs ∧ (x ∈ seen ∨ 2 ≤ xs.count x) := by
  induction xs generalizing seen with
  | nil => cases h
  | cons y ys ih =>
    rw [firstRepeatAfter?] at h
    split at h
    · next hy =>
      obtain rfl := Option.some.inj h
      exact ⟨List.mem_cons_self, .inl hy⟩
    · obtain ⟨hmem, hrepeat⟩ := ih h
      refine ⟨List.mem_cons_of_mem y hmem, ?_⟩
      by_cases hxy : x = y
      · subst hxy
        have hcount : 0 < ys.count x := List.count_pos_iff.mpr hmem
        exact .inr (by rw [List.count_cons_self]; omega)
      · rw [List.count_cons_of_ne (Ne.symm hxy)]
        simpa [hxy] using hrepeat

/-- What is reported as a repetition stands in the list at least twice. -/
theorem two_le_count_of_firstRepeat? {xs : List α} {x : α} (h : firstRepeat? xs = some x) :
    2 ≤ xs.count x := by
  simpa using (two_le_count_of_firstRepeatAfter? h).2

end Scaffold
