import Mathlib.Data.List.Basic
import Scaffold.Service.Routing

/-!
Paths up to a trailing slash. Toggling the slash is undone by toggling again unless the path ends in
two slashes: one toggle takes the first of them away and the next one the other. That is also the
one way in which two paths toggle to the same path.
-/

namespace Scaffold

def EndsInSlash (path : String) : Prop := path.toList.getLast? = some '/'

instance (path : String) : Decidable (EndsInSlash path) :=
  inferInstanceAs (Decidable (path.toList.getLast? = some '/'))

theorem endsInSlash_iff (path : String) : EndsInSlash path ↔ ∃ stem, path = stem ++ "/" := by
  unfold EndsInSlash
  rw [List.getLast?_eq_some_iff]
  constructor
  · rintro ⟨cs, hcs⟩
    exact ⟨String.ofList cs, by simp [← String.toList_inj, hcs]⟩
  · rintro ⟨stem, rfl⟩
    exact ⟨stem.toList, by simp⟩

theorem toggleTrailingSlash_append_slash (stem : String) :
    toggleTrailingSlash (stem ++ "/") = stem := by
  simp [toggleTrailingSlash]

theorem toggleTrailingSlash_of_not_endsInSlash {path : String} (h : ¬ EndsInSlash path) :
    toggleTrailingSlash path = path ++ "/" := by
  unfold toggleTrailingSlash
  split
  · next rest hrest =>
    have hlast : path.toList.getLast? = some '/' := by
      rw [← List.head?_reverse, hrest]
      rfl
    exact absurd hlast h
  · rfl

theorem append_double_slash (stem : String) : stem ++ "//" = stem ++ "/" ++ "/" := by
  rw [String.append_assoc]
  rfl

theorem append_slash_eq_double_iff (stem : String) :
    (∃ rest, stem ++ "/" = rest ++ "//") ↔ EndsInSlash stem := by
  rw [endsInSlash_iff]
  constructor
  · rintro ⟨rest, hrest⟩
    rw [append_double_slash, String.append_left_inj] at hrest
    exact ⟨rest, hrest⟩
  · rintro ⟨rest, rfl⟩
    exact ⟨rest, (append_double_slash rest).symm⟩

theorem not_double_of_not_endsInSlash {path : String} (h : ¬ EndsInSlash path) :
    ¬ ∃ stem, path = stem ++ "//" := by
  rintro ⟨stem, rfl⟩
  exact h ((endsInSlash_iff _).mpr ⟨stem ++ "/", append_double_slash stem⟩)

/-- Toggling twice gives back the path unless it ends in two slashes. -/
theorem toggleTrailingSlash_toggleTrailingSlash_iff (path : String) :
    toggleTrailingSlash (toggleTrailingSlash path) = path ↔ ¬ ∃ stem, path = stem ++ "//" := by
  by_cases hend : EndsInSlash path
  · obtain ⟨stem, rfl⟩ := (endsInSlash_iff path).mp hend
    rw [append_slash_eq_double_iff, toggleTrailingSlash_append_slash]
    constructor
    · intro htoggle hstem
      obtain ⟨rest, rfl⟩ := (endsInSlash_iff stem).mp hstem
      rw [toggleTrailingSlash_append_slash] at htoggle
      have hlength := congrArg String.length htoggle
      simp only [String.length_append] at hlength
      have hslash : "/".length = 1 := rfl
      omega
    · exact toggleTrailingSlash_of_not_endsInSlash
  · rw [toggleTrailingSlash_of_not_endsInSlash hend, toggleTrailingSlash_append_slash]
    exact ⟨fun _ => not_double_of_not_endsInSlash hend, fun _ => rfl⟩

/-- Two paths between which lies a third, one slash from either. -/
def SlashesApart (p q : String) : Prop := ¬ EndsInSlash p ∧ q = p ++ "//"

instance (p q : String) : Decidable (SlashesApart p q) := inferInstanceAs (Decidable (_ ∧ _))

/-- Two paths with one toggled path are the same, or a path without a slash at its end and the one
with two more. -/
theorem toggleTrailingSlash_eq_iff (p q : String) :
    toggleTrailingSlash p = toggleTrailingSlash q ↔
      p = q ∨ SlashesApart p q ∨ SlashesApart q p := by
  by_cases hp : EndsInSlash p
  · obtain ⟨x, rfl⟩ := (endsInSlash_iff p).mp hp
    by_cases hq : EndsInSlash q
    · obtain ⟨y, rfl⟩ := (endsInSlash_iff q).mp hq
      simp [SlashesApart, hp, hq, toggleTrailingSlash_append_slash, String.append_left_inj]
    · have hne : x ++ "/" ≠ q := fun h => hq (h ▸ hp)
      rw [toggleTrailingSlash_append_slash, toggleTrailingSlash_of_not_endsInSlash hq]
      simp [SlashesApart, hp, hq, hne, append_double_slash, String.append_left_inj]
  · by_cases hq : EndsInSlash q
    · obtain ⟨y, rfl⟩ := (endsInSlash_iff q).mp hq
      have hne : p ≠ y ++ "/" := fun h => hp (h ▸ hq)
      rw [toggleTrailingSlash_append_slash, toggleTrailingSlash_of_not_endsInSlash hp]
      simp [SlashesApart, hp, hq, hne, append_double_slash, String.append_left_inj, eq_comm]
    · have hnot : ∀ x y : String, ¬ EndsInSlash y → y ≠ x ++ "//" := fun x y hy h =>
        not_double_of_not_endsInSlash hy ⟨x, h⟩
      rw [toggleTrailingSlash_of_not_endsInSlash hp, toggleTrailingSlash_of_not_endsInSlash hq]
      simp [SlashesApart, hnot _ _ hp, hnot _ _ hq, String.append_left_inj]

end Scaffold
