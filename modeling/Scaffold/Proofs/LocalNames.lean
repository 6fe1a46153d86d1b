import Mathlib.Data.List.Nodup
import Mathlib.Data.List.Perm.Subperm
import Scaffold.Source.Requirement

/-!
Which symbols the imports resolve, and to what. Local names are handed out group by group, and the
groups split the registered symbols by their exported name, so exactly the registered symbols are
given one. None of the names given is one that the file declares.
-/

namespace Scaffold.Source.Imports

namespace Assignment

/-- The symbols that were given a local name. -/
def symbols (a : Assignment) : List Symbol := a.given.map Prod.fst

theorem symbols_giveAlias (a : Assignment) (s : Symbol) :
    (a.giveAlias s).symbols = a.symbols ++ [s] := by
  simp [symbols, giveAlias]

theorem symbols_giveName (a : Assignment) (s : Symbol) :
    (a.giveName s).symbols = a.symbols ++ [s] := by
  simp [symbols, giveName]

theorem symbols_foldl_giveAlias (a : Assignment) (members : List Symbol) :
    (members.foldl giveAlias a).symbols = a.symbols ++ members := by
  induction members generalizing a with
  | nil => simp
  | cons s ss ih =>
    rw [List.foldl_cons, ih, symbols_giveAlias, List.append_assoc]
    rfl

/-- A group is given its names in full, whether or not its first member keeps its own. -/
theorem symbols_giveGroup (reserved : List String) (a : Assignment) (members : List Symbol) :
    (giveGroup reserved a members).symbols = a.symbols ++ members := by
  cases members with
  | nil => simp [giveGroup]
  | cons s rest =>
    by_cases hreserved : reserved.contains s.name = true
    · rw [giveGroup, if_pos hreserved]
      exact symbols_foldl_giveAlias a (s :: rest)
    · rw [giveGroup, if_neg hreserved, symbols_foldl_giveAlias, symbols_giveName,
        List.append_assoc]
      rfl

theorem symbols_foldl_giveGroup (reserved : List String) (a : Assignment)
    (groups : List (List Symbol)) :
    (groups.foldl (giveGroup reserved) a).symbols = a.symbols ++ groups.flatten := by
  induction groups generalizing a with
  | nil => simp
  | cons group groups ih =>
    rw [List.foldl_cons, ih, symbols_giveGroup, List.append_assoc, List.flatten_cons]

end Assignment

theorem mem_exportedNames_iff (r : Imports) (name : String) :
    name ∈ r.exportedNames ↔ ∃ s ∈ r.symbols, s.name = name := by
  have hfold (symbols : List Symbol) (names : List String) :
      name ∈ symbols.foldl (fun names s => insertSorted nameBefore s.name names) names ↔
        name ∈ names ∨ ∃ s ∈ symbols, s.name = name := by
    induction symbols generalizing names with
    | nil => simp
    | cons s ss ih =>
      rw [List.foldl_cons, ih, mem_insertSorted]
      simp only [List.mem_cons, exists_eq_or_imp]
      tauto
  simpa [exportedNames] using hfold r.symbols []

theorem mem_group_iff (r : Imports) (name : String) (s : Symbol) :
    s ∈ r.group name ↔ s ∈ r.symbols ∧ s.name = name := by
  simp [group, List.mem_mergeSort]

/-- The symbols in the order in which they are given their local names. -/
def queue (r : Imports) : List Symbol := (r.exportedNames.map r.group).flatten

theorem symbols_assignment (r : Imports) : r.assignment.symbols = r.queue :=
  (Assignment.symbols_foldl_giveGroup _ _ _).trans (List.nil_append _)

theorem mem_queue_iff (r : Imports) (s : Symbol) : s ∈ r.queue ↔ s ∈ r.symbols := by
  rw [queue, ← List.flatMap_def, List.mem_flatMap]
  constructor
  · rintro ⟨name, -, hs⟩
    exact ((mem_group_iff r name s).mp hs).1
  · intro hs
    exact ⟨s.name, (mem_exportedNames_iff r s.name).mpr ⟨s, hs, rfl⟩,
      (mem_group_iff r s.name s).mpr ⟨hs, rfl⟩⟩

/-- A symbol is given a local name exactly if it is registered. -/
theorem isSome_localName?_iff (r : Imports) (s : Symbol) :
    (r.localName? s).isSome ↔ s ∈ r.symbols := by
  rw [← r.mem_queue_iff, ← r.symbols_assignment, localName?, List.lookup_isSome_iff,
    Assignment.symbols, List.mem_map]
  simp only [beq_iff_eq]
  exact exists_congr fun p => and_congr_right fun _ => eq_comm

theorem aliasAt_injective (base : String) : Function.Injective (aliasAt base) := by
  have hplain (i : ℕ) (hi : i ≠ 0) : aliasAt base i ≠ aliasAt base 0 := by
    intro h
    simp only [aliasAt, hi, if_false, if_true] at h
    have hlength := congrArg String.length h
    have hdigits : 0 < (toString (i + 1)).length := by
      rw [Nat.toString_eq_ofList_toDigits, String.length_ofList]
      exact Nat.length_toDigits_pos
    rw [String.length_append] at hlength
    omega
  intro i j h
  by_cases hi : i = 0
  · subst hi
    by_contra hj
    exact hplain j (Ne.symm hj) h.symm
  · by_cases hj : j = 0
    · subst hj
      exact absurd h (hplain i hi)
    · simp only [aliasAt, hi, hj, if_false, String.append_right_inj] at h
      have hdigits : Nat.toDigits 10 (i + 1) = Nat.toDigits 10 (j + 1) := by
        have hlists := congrArg String.toList h
        simpa [Nat.toString_eq_ofList_toDigits] using hlists
      have hnext : i + 1 = j + 1 :=
        calc
          i + 1 = Nat.ofDigitChars 10 (Nat.toDigits 10 (i + 1)) 0 :=
            Nat.ofDigitChars_ten_toDigits.symm
          _ = Nat.ofDigitChars 10 (Nat.toDigits 10 (j + 1)) 0 := by rw [hdigits]
          _ = j + 1 := Nat.ofDigitChars_ten_toDigits
      exact Nat.succ.inj hnext

/-- The first of the candidates made from a base that is not taken. -/
def IsFirstFree (taken : String → Prop) (base name : String) : Prop :=
  ∃ i, name = aliasAt base i ∧ ¬ taken name ∧ ∀ j < i, taken (aliasAt base j)

/-- There are more candidates for an alias than names in use, so that one of them is free. -/
theorem isFirstFree_freshAlias (used : List String) (s : Symbol) :
    IsFirstFree (· ∈ used) (aliasBase s) (freshAlias used s) := by
  let isFree (a : String) : Bool := !(used.contains a)
  have hfind : ((List.range (used.length + 1)).map (aliasAt (aliasBase s))).find? isFree =
      ((List.range (used.length + 1)).find? (isFree ∘ aliasAt (aliasBase s))).map
        (aliasAt (aliasBase s)) := List.find?_map
  cases hfirst : (List.range (used.length + 1)).find? (isFree ∘ aliasAt (aliasBase s)) with
  | none =>
    have hsub : (List.range (used.length + 1)).map (aliasAt (aliasBase s)) ⊆ used := by
      intro a ha
      obtain ⟨i, hi, rfl⟩ := List.mem_map.mp ha
      simpa [isFree] using List.find?_eq_none.mp hfirst i hi
    have hnodup := (List.nodup_range (n := used.length + 1)).map (aliasAt_injective (aliasBase s))
    have hlength := (List.subperm_of_subset hnodup hsub).length_le
    simp only [List.length_map, List.length_range] at hlength
    omega
  | some i =>
    obtain ⟨hfree, -, hbefore⟩ := List.find?_range_eq_some.mp hfirst
    have halias : freshAlias used s = aliasAt (aliasBase s) i := by
      change (((List.range (used.length + 1)).map (aliasAt (aliasBase s))).find? isFree).getD _ = _
      rw [hfind, hfirst]
      rfl
    refine ⟨i, halias, ?_, fun j hj => ?_⟩
    · rw [halias]
      simpa [isFree] using hfree
    · simpa [isFree] using hbefore j hj

theorem freshAlias_not_mem (used : List String) (s : Symbol) : freshAlias used s ∉ used := by
  obtain ⟨-, -, hfree, -⟩ := isFirstFree_freshAlias used s
  exact hfree

namespace Assignment

/-- No local name is one that the file declares, and no alias will be. -/
structure Keeps (reserved : List String) (a : Assignment) : Prop where
  used : reserved ⊆ a.used
  given : ∀ p ∈ a.given, p.2 ∉ reserved

variable {reserved : List String} {a : Assignment}

theorem Keeps.giveAlias (h : a.Keeps reserved) (s : Symbol) : (a.giveAlias s).Keeps reserved where
  used := fun _ hname => List.mem_cons_of_mem _ (h.used hname)
  given := by
    intro p hp
    rcases List.mem_append.mp hp with hp | hp
    · exact h.given p hp
    · obtain rfl := List.mem_singleton.mp hp
      exact fun hmem => freshAlias_not_mem a.used s (h.used hmem)

theorem Keeps.giveName (h : a.Keeps reserved) {s : Symbol} (hs : s.name ∉ reserved) :
    (a.giveName s).Keeps reserved where
  used := h.used
  given := by
    intro p hp
    rcases List.mem_append.mp hp with hp | hp
    · exact h.given p hp
    · obtain rfl := List.mem_singleton.mp hp
      exact hs

theorem Keeps.foldl_giveAlias (h : a.Keeps reserved) (members : List Symbol) :
    (members.foldl Assignment.giveAlias a).Keeps reserved := by
  induction members generalizing a with
  | nil => exact h
  | cons s ss ih => exact ih (h.giveAlias s)

theorem Keeps.giveGroup (h : a.Keeps reserved) (members : List Symbol) :
    (Assignment.giveGroup reserved a members).Keeps reserved := by
  cases members with
  | nil => exact h
  | cons s rest =>
    by_cases hreserved : reserved.contains s.name = true
    · rw [Assignment.giveGroup, if_pos hreserved]
      exact h.foldl_giveAlias (s :: rest)
    · rw [Assignment.giveGroup, if_neg hreserved]
      exact (h.giveName (by simpa using hreserved)).foldl_giveAlias rest

theorem Keeps.foldl_giveGroup (h : a.Keeps reserved) (groups : List (List Symbol)) :
    (groups.foldl (Assignment.giveGroup reserved) a).Keeps reserved := by
  induction groups generalizing a with
  | nil => exact h
  | cons group groups ih => exact ih (h.giveGroup group)

end Assignment

/-- No symbol is spoken by a name that the file declares. -/
theorem localName?_not_reserved {r : Imports} {s : Symbol} {spoken : String}
    (h : r.localName? s = some spoken) : spoken ∉ r.reserved := by
  have hstart : Assignment.Keeps r.reserved { used := r.reserved ++ r.exportedNames } :=
    { used := List.subset_append_left _ _, given := by simp }
  have hkeeps : r.assignment.Keeps r.reserved := hstart.foldl_giveGroup _
  obtain ⟨before, after, hgiven, -⟩ := List.lookup_eq_some_iff.mp h
  exact hkeeps.given (s, spoken) (by simp [hgiven])

end Scaffold.Source.Imports

namespace Scaffold.Source

/-- What passes as registered can be spoken, and nothing else passes. -/
theorem Requirement.registered_defect?_eq_none_iff (imports : Imports) (s : Symbol) :
    (registered s).defect? imports = none ↔ (imports.localName? s).isSome := by
  rw [imports.isSome_localName?_iff]
  simp [defect?]

end Scaffold.Source
