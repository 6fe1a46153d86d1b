import Scaffold.Proofs.ImportSets

/-!
Which local name each symbol is given. Groups of symbols with one exported name have their turn by
that name, and the symbols of a group by full path, so each local name depends only on those given
before it. The invariant of a run is that each of them was due when it was given.
-/

namespace Scaffold.Source

/-- Local names are given by exported name, and by full path among the symbols of one name. -/
def Symbol.NamedBefore (s t : Symbol) : Prop :=
  s.name < t.name ∨ s.name = t.name ∧ s.fullPath < t.fullPath

namespace Symbol

variable {s t : Symbol}

theorem NamedBefore.asymm (h : s.NamedBefore t) : ¬ t.NamedBefore s := by
  rintro (hback | ⟨hname, hback⟩)
  · rcases h with h | ⟨hname, -⟩
    · exact String.lt_irrefl _ (String.lt_trans h hback)
    · rw [hname] at hback
      exact String.lt_irrefl _ hback
  · rcases h with h | ⟨-, h⟩
    · rw [hname] at h
      exact String.lt_irrefl _ h
    · exact String.lt_irrefl _ (String.lt_trans h hback)

theorem NamedBefore.fullPath_lt (h : s.NamedBefore t) (hname : s.name = t.name) :
    s.fullPath < t.fullPath := by
  rcases h with hless | ⟨-, hpath⟩
  · rw [hname] at hless
    exact absurd hless (String.lt_irrefl _)
  · exact hpath

theorem namedBefore_or_of_ne (h : s ≠ t) : s.NamedBefore t ∨ t.NamedBefore s := by
  by_cases hname : s.name = t.name
  · have hpath : s.fullPath ≠ t.fullPath := fun hpath => h (eq_of_fullPath_eq hname hpath)
    exact (lt_or_lt_of_ne hpath).imp (fun hlt => .inr ⟨hname, hlt⟩) fun hlt =>
      .inr ⟨hname.symm, hlt⟩
  · exact (lt_or_lt_of_ne hname).imp .inl .inl

end Symbol

namespace Imports

variable {r : Imports} {notes : List Note} {s t : Symbol} {name : String}

/-- The file declares the name of the symbol, or a symbol of that name has a lesser full path. -/
def NeedsAlias (r : Imports) (s : Symbol) : Prop :=
  s.name ∈ r.reserved ∨ ∃ t ∈ r.symbols, t.name = s.name ∧ t.fullPath < s.fullPath

/-- The file declares the name, a symbol is exported under it, or it is an alias that was given
before the symbol had its turn. -/
def Taken (r : Imports) (s : Symbol) (name : String) : Prop :=
  name ∈ r.reserved ∨ (∃ t ∈ r.symbols, t.name = name) ∨
    ∃ t, t.NamedBefore s ∧ r.NeedsAlias t ∧ r.localName? t = some name

theorem pairwise_exportedNames (r : Imports) :
    r.exportedNames.Pairwise fun m n => nameBefore m n = true := by
  have hfold (symbols : List Symbol) (names : List String)
      (h : names.Pairwise fun m n => nameBefore m n = true) :
      (symbols.foldl (fun names s => insertSorted nameBefore s.name names) names).Pairwise
        fun m n => nameBefore m n = true := by
    induction symbols generalizing names with
    | nil => exact h
    | cons s ss ih => exact ih _ (sorts_nameBefore.pairwise_insertSorted s.name h)
  exact hfold r.symbols [] .nil

theorem Holds.pairwise_group (h : r.Holds notes) (name : String) :
    (r.group name).Pairwise fun s t => s.fullPath < t.fullPath := by
  have hsorted : (r.group name).Pairwise fun s t => s.fullPath ≤ t.fullPath := by
    refine (List.pairwise_mergeSort ?_ ?_ _).imp of_decide_eq_true
    · intro a b c hab hbc
      rw [decide_eq_true_eq] at hab hbc ⊢
      exact String.le_trans hab hbc
    · intro a b
      rw [Bool.or_eq_true, decide_eq_true_eq, decide_eq_true_eq]
      exact String.le_total _ _
  have hnodup : (r.group name).Nodup :=
    (List.mergeSort_perm _ _).nodup_iff.mpr
      ((Symbol.sorts_before.nodup h.sorted_symbols).filter _)
  refine (hsorted.and hnodup).imp_of_mem fun {s t} hs ht hst => ?_
  have hname : s.name = t.name :=
    ((mem_group_iff r name s).mp hs).2.trans ((mem_group_iff r name t).mp ht).2.symm
  by_contra hnot
  have hpath := String.le_antisymm hst.1 (String.not_lt.mp hnot)
  exact hst.2 (Symbol.eq_of_fullPath_eq hname hpath)

theorem Holds.pairwise_queue (h : r.Holds notes) : r.queue.Pairwise Symbol.NamedBefore := by
  refine List.pairwise_flatten.mpr ⟨fun members hmembers => ?_, ?_⟩
  · obtain ⟨name, -, rfl⟩ := List.mem_map.mp hmembers
    refine (h.pairwise_group name).imp_of_mem fun {s t} hs ht hlt => .inr ⟨?_, hlt⟩
    exact ((mem_group_iff r name s).mp hs).2.trans ((mem_group_iff r name t).mp ht).2.symm
  · refine List.pairwise_map.mpr (r.pairwise_exportedNames.imp fun {m n} hmn s hs t ht => ?_)
    rw [nameBefore, decide_eq_true_eq] at hmn
    left
    rwa [((mem_group_iff r m s).mp hs).2, ((mem_group_iff r n t).mp ht).2]

theorem Holds.nodup_queue (h : r.Holds notes) : r.queue.Nodup :=
  h.pairwise_queue.imp fun {_ _} hst heq => (heq ▸ hst).asymm (heq ▸ hst)

theorem Holds.localName?_eq_some_iff (h : r.Holds notes) :
    r.localName? s = some name ↔ (s, name) ∈ r.assignment.given := by
  have hnodup : (r.assignment.given.map Prod.fst).Nodup := by
    change r.assignment.symbols.Nodup
    rw [r.symbols_assignment]
    exact h.nodup_queue
  rw [localName?, List.lookup_eq_some_iff]
  constructor
  · rintro ⟨before, after, hgiven, -⟩
    rw [hgiven]
    simp
  · intro hmem
    obtain ⟨before, after, hgiven⟩ := List.append_of_mem hmem
    refine ⟨before, after, hgiven, fun p hp => bne_iff_ne.mpr fun heq => ?_⟩
    rw [hgiven, List.map_append, List.nodup_append] at hnodup
    exact hnodup.2.2 _ (List.mem_map_of_mem hp) s (by simp) heq.symm

namespace Assignment

/-- A symbol keeps its name if it is free and the first of its group, and else takes the first free
alias. -/
def Due (reserved exported : List String) (before : List (Symbol × String))
    (p : Symbol × String) : Prop :=
  (p.1.name ∉ reserved ∧ (∀ q ∈ before, q.1.name ≠ p.1.name) ∧ p.2 = p.1.name) ∨
    ((p.1.name ∈ reserved ∨ ∃ q ∈ before, q.1.name = p.1.name) ∧
      IsFirstFree (fun name => name ∈ reserved ∨ name ∈ exported ∨ ∃ q ∈ before, q.2 = name)
        (aliasBase p.1) p.2)

/-- All names given are in use, and each was due when it was given. -/
structure Orderly (reserved exported : List String) (a : Assignment) : Prop where
  used : ∀ name, name ∈ a.used ↔
    name ∈ reserved ∨ name ∈ exported ∨ ∃ p ∈ a.given, p.2 = name
  due : ∀ before p after, a.given = before ++ p :: after → Due reserved exported before p

/-- What holds of each element behind those in front of it holds so of one element more. -/
theorem forall_split_concat {α : Type} {P : List α → α → Prop} {xs : List α} {x : α}
    (h : ∀ before y after, xs = before ++ y :: after → P before y) (hx : P xs x) :
    ∀ before y after, xs ++ [x] = before ++ y :: after → P before y := by
  intro before y after heq
  rcases List.eq_nil_or_concat after with rfl | ⟨init, z, rfl⟩
  · obtain ⟨rfl, hxy⟩ := List.append_inj' heq rfl
    exact List.singleton_inj.mp hxy ▸ hx
  · rw [List.concat_eq_append, ← List.cons_append, ← List.append_assoc] at heq
    exact h before y init (List.append_inj' heq rfl).1

variable {reserved exported : List String} {a : Assignment}

theorem Orderly.giveAlias (h : a.Orderly reserved exported)
    (hlost : s.name ∈ reserved ∨ ∃ p ∈ a.given, p.1.name = s.name) :
    (a.giveAlias s).Orderly reserved exported where
  used := by
    intro name
    change name ∈ freshAlias a.used s :: a.used ↔ _ ∨ _ ∨ ∃ p ∈ a.given ++ [_], p.2 = name
    rw [List.mem_cons, h.used, eq_comm (a := name)]
    simp only [List.mem_append, List.mem_singleton, or_and_right, exists_or, exists_eq_left]
    rw [or_comm, or_assoc, or_assoc]
  due := by
    refine forall_split_concat h.due (.inr ⟨hlost, ?_⟩)
    obtain ⟨i, heq, hfree, hbefore⟩ := isFirstFree_freshAlias a.used s
    exact ⟨i, heq, mt (h.used _).mpr hfree, fun j hj => (h.used _).mp (hbefore j hj)⟩

theorem Orderly.giveName (h : a.Orderly reserved exported) (hexported : s.name ∈ exported)
    (hfree : s.name ∉ reserved) (hfirst : ∀ p ∈ a.given, p.1.name ≠ s.name) :
    (a.giveName s).Orderly reserved exported where
  used := by
    intro name
    change name ∈ a.used ↔ _ ∨ _ ∨ ∃ p ∈ a.given ++ [(s, s.name)], p.2 = name
    rw [h.used]
    simp only [List.mem_append, List.mem_singleton, or_and_right, exists_or, exists_eq_left]
    have hname : s.name = name → name ∈ exported := fun heq => heq ▸ hexported
    grind
  due := forall_split_concat h.due (.inl ⟨hfree, hfirst, rfl⟩)

/-- A name once lost stays lost, since what was given stays given. -/
theorem Orderly.foldl_giveAlias (h : a.Orderly reserved exported) {members : List Symbol}
    (hlost : ∀ s ∈ members, s.name ∈ reserved ∨ ∃ p ∈ a.given, p.1.name = s.name) :
    (members.foldl Assignment.giveAlias a).Orderly reserved exported := by
  induction members generalizing a with
  | nil => exact h
  | cons s ss ih =>
    obtain ⟨hs, hss⟩ := List.forall_mem_cons.mp hlost
    refine ih (h.giveAlias hs) fun t ht => (hss t ht).imp_right ?_
    rintro ⟨p, hp, hname⟩
    exact ⟨p, List.mem_append_left _ hp, hname⟩

theorem Orderly.giveGroup (h : a.Orderly reserved exported) {members : List Symbol}
    (hmembers : ∀ s ∈ members, s.name = name) (hexported : name ∈ exported)
    (hnew : ∀ s ∈ a.symbols, s.name ≠ name) :
    (Assignment.giveGroup reserved a members).Orderly reserved exported := by
  cases members with
  | nil => exact h
  | cons s rest =>
    obtain ⟨rfl, hrest⟩ := List.forall_mem_cons.mp hmembers
    by_cases hreserved : reserved.contains s.name = true
    · rw [Assignment.giveGroup, if_pos hreserved]
      rw [List.contains_iff_mem] at hreserved
      exact h.foldl_giveAlias fun t ht => .inl (hmembers t ht ▸ hreserved)
    · rw [Assignment.giveGroup, if_neg hreserved]
      rw [List.contains_iff_mem] at hreserved
      have hfirst : ∀ p ∈ a.given, p.1.name ≠ s.name :=
        fun p hp => hnew p.1 (List.mem_map_of_mem hp)
      refine (h.giveName hexported hreserved hfirst).foldl_giveAlias fun t ht => .inr ?_
      exact ⟨(s, s.name), List.mem_append_right _ List.mem_cons_self, (hrest t ht).symm⟩

theorem Orderly.foldl_giveGroup (h : a.Orderly reserved exported) {names : List String}
    {group : String → List Symbol} (hgroup : ∀ name, ∀ s ∈ group name, s.name = name)
    (hexported : names ⊆ exported) (hnodup : names.Nodup)
    (hnew : ∀ s ∈ a.symbols, s.name ∉ names) :
    ((names.map group).foldl (Assignment.giveGroup reserved) a).Orderly reserved exported := by
  induction names generalizing a with
  | nil => exact h
  | cons name names ih =>
    obtain ⟨hname, hnames⟩ := List.cons_subset.mp hexported
    obtain ⟨hout, hnodup⟩ := List.nodup_cons.mp hnodup
    refine ih (h.giveGroup (hgroup name) hname fun s hs heq => ?_) hnames hnodup fun s hs => ?_
    · exact hnew s hs (heq ▸ List.mem_cons_self)
    · rw [symbols_giveGroup, List.mem_append] at hs
      rcases hs with hs | hs
      · exact fun hmem => hnew s hs (List.mem_cons_of_mem name hmem)
      · rwa [hgroup name s hs]

end Assignment

theorem orderly_assignment (r : Imports) :
    r.assignment.Orderly r.reserved r.exportedNames := by
  refine Assignment.Orderly.foldl_giveGroup ⟨fun name => ?_, fun before p after heq => ?_⟩
    (fun name s hs => ((mem_group_iff r name s).mp hs).2) (List.Subset.refl _)
    (sorts_nameBefore.nodup r.pairwise_exportedNames) nofun
  · simp
  · exact absurd heq (by simp)

/-- What was given before a symbol are the local names of the symbols that have their turn before
it. -/
theorem Holds.due (h : r.Holds notes) (hname : r.localName? s = some name) :
    ∃ before, (∀ p, p ∈ before ↔ p.1.NamedBefore s ∧ r.localName? p.1 = some p.2) ∧
      Assignment.Due r.reserved r.exportedNames before (s, name) := by
  obtain ⟨before, after, hgiven⟩ := List.append_of_mem (h.localName?_eq_some_iff.mp hname)
  refine ⟨before, fun p => ?_, r.orderly_assignment.due before _ after hgiven⟩
  have hqueue : r.queue = before.map Prod.fst ++ s :: after.map Prod.fst := by
    rw [← r.symbols_assignment, Assignment.symbols, hgiven, List.map_append, List.map_cons]
  have hpairs := h.pairwise_queue
  rw [hqueue, List.pairwise_append, List.pairwise_cons] at hpairs
  obtain ⟨-, ⟨hafter, -⟩, hbefore⟩ := hpairs
  have hgivenp : r.localName? p.1 = some p.2 ↔ p ∈ r.assignment.given := h.localName?_eq_some_iff
  rw [hgivenp, hgiven, List.mem_append, List.mem_cons]
  constructor
  · exact fun hp => ⟨hbefore p.1 (List.mem_map_of_mem hp) s List.mem_cons_self, .inl hp⟩
  · rintro ⟨hturn, hp | rfl | hp⟩
    · exact hp
    · exact absurd hturn hturn.asymm
    · exact absurd hturn (hafter p.1 (List.mem_map_of_mem hp)).asymm

theorem exists_localName? (hs : s ∈ r.symbols) :
    ∃ name, r.localName? s = some name :=
  Option.isSome_iff_exists.mp ((r.isSome_localName?_iff s).mpr hs)

theorem mem_symbols_of_localName? (h : r.localName? s = some name) : s ∈ r.symbols :=
  (r.isSome_localName?_iff s).mp (Option.isSome_iff_exists.mpr ⟨name, h⟩)

/-- A symbol of the same name with a lesser path has its turn before. -/
theorem needsAlias_iff {before : List (Symbol × String)}
    (hbefore : ∀ p, p ∈ before ↔ p.1.NamedBefore s ∧ r.localName? p.1 = some p.2) :
    r.NeedsAlias s ↔ s.name ∈ r.reserved ∨ ∃ p ∈ before, p.1.name = s.name := by
  refine or_congr_right ⟨?_, ?_⟩
  · rintro ⟨t, ht, hname, hpath⟩
    obtain ⟨spoken, hspoken⟩ := exists_localName? ht
    exact ⟨(t, spoken), (hbefore _).mpr ⟨.inr ⟨hname, hpath⟩, hspoken⟩, hname⟩
  · rintro ⟨p, hp, hname⟩
    obtain ⟨hturn, hspoken⟩ := (hbefore p).mp hp
    exact ⟨p.1, mem_symbols_of_localName? hspoken, hname, hturn.fullPath_lt hname⟩

/-- The least symbol of a group keeps its name, unless the file declares it. -/
theorem Holds.eq_name_of_not_needsAlias (h : r.Holds notes) (hname : r.localName? s = some name)
    (hkeeps : ¬ r.NeedsAlias s) : name = s.name := by
  obtain ⟨before, hbefore, ⟨-, -, heq⟩ | ⟨hlost, -⟩⟩ := h.due hname
  · exact heq
  · exact absurd ((needsAlias_iff hbefore).mpr hlost) hkeeps

/-- Every other symbol takes the first alias that is not taken. -/
theorem Holds.isFirstFree_of_needsAlias (h : r.Holds notes) (hname : r.localName? s = some name)
    (hneeds : r.NeedsAlias s) : IsFirstFree (r.Taken s) (aliasBase s) name := by
  obtain ⟨before, hbefore, hdue⟩ := h.due hname
  have hlost := (needsAlias_iff hbefore).mp hneeds
  have htaken (n : String) :
      (n ∈ r.reserved ∨ n ∈ r.exportedNames ∨ ∃ p ∈ before, p.2 = n) ↔ r.Taken s n := by
    refine or_congr_right ?_
    rw [r.mem_exportedNames_iff]
    constructor
    · rintro (hexported | ⟨p, hp, rfl⟩)
      · exact .inl hexported
      · obtain ⟨hturn, hspoken⟩ := (hbefore p).mp hp
        by_cases hp : r.NeedsAlias p.1
        · exact .inr ⟨p.1, hturn, hp, hspoken⟩
        · refine .inl ⟨p.1, mem_symbols_of_localName? hspoken, ?_⟩
          exact (h.eq_name_of_not_needsAlias hspoken hp).symm
    · rintro (hexported | ⟨t, hturn, -, hspoken⟩)
      · exact .inl hexported
      · exact .inr ⟨(t, n), (hbefore _).mpr ⟨hturn, hspoken⟩, rfl⟩
  rcases hdue with ⟨hfree, hfirst, -⟩ | ⟨-, i, heq, hfree, hless⟩
  · rcases hlost with hreserved | ⟨p, hp, hsame⟩
    · exact absurd hreserved hfree
    · exact absurd hsame (hfirst p hp)
  · exact ⟨i, heq, mt (htaken name).mpr hfree, fun j hj => (htaken _).mp (hless j hj)⟩

/-- Of two symbols with one local name neither can have had its turn before the other. -/
theorem Holds.eq_of_localName?_eq (h : r.Holds notes) (hs : r.localName? s = some name)
    (ht : r.localName? t = some name) : s = t := by
  by_contra hne
  -- an alias is no name that a symbol is exported under
  have hmixed {s t : Symbol} (hs : r.localName? s = some name) (ht : r.localName? t = some name)
      (hkeeps : ¬ r.NeedsAlias s) (hneeds : r.NeedsAlias t) : False := by
    obtain ⟨-, -, hfree, -⟩ := h.isFirstFree_of_needsAlias ht hneeds
    have hown := h.eq_name_of_not_needsAlias hs hkeeps
    exact hfree (.inr (.inl ⟨s, mem_symbols_of_localName? hs, hown.symm⟩))
  by_cases hneeds : r.NeedsAlias s <;> by_cases hneedt : r.NeedsAlias t
  · obtain ⟨-, -, hfrees, -⟩ := h.isFirstFree_of_needsAlias hs hneeds
    obtain ⟨-, -, hfreet, -⟩ := h.isFirstFree_of_needsAlias ht hneedt
    rcases Symbol.namedBefore_or_of_ne hne with hturn | hturn
    · exact hfreet (.inr (.inr ⟨s, hturn, hneeds, hs⟩))
    · exact hfrees (.inr (.inr ⟨t, hturn, hneedt, ht⟩))
  · exact hmixed ht hs hneedt hneeds
  · exact hmixed hs ht hneeds hneedt
  · have hnames : s.name = t.name :=
      (h.eq_name_of_not_needsAlias hs hneeds).symm.trans (h.eq_name_of_not_needsAlias ht hneedt)
    rcases Symbol.namedBefore_or_of_ne hne with hturn | hturn
    · exact hneedt (.inr ⟨s, mem_symbols_of_localName? hs, hnames, hturn.fullPath_lt hnames⟩)
    · have hsame := hnames.symm
      exact hneeds (.inr ⟨t, mem_symbols_of_localName? ht, hsame, hturn.fullPath_lt hsame⟩)

theorem mem_localNames_iff {p : Symbol × String} :
    p ∈ r.localNames ↔ r.localName? p.1 = some p.2 := by
  rw [localNames, List.mem_filterMap]
  constructor
  · rintro ⟨s, -, hp⟩
    obtain ⟨name, hname, rfl⟩ := Option.map_eq_some_iff.mp hp
    exact hname
  · exact fun hname => ⟨p.1, mem_symbols_of_localName? hname, Option.map_eq_some_iff.mpr
      ⟨p.2, hname, rfl⟩⟩

/-- The name that a symbol is spoken by, which is its own if it is not registered. -/
def spoken (r : Imports) (s : Symbol) : String := (r.localName? s).getD s.name

theorem localName?_eq_some_spoken (hs : s ∈ r.symbols) : r.localName? s = some (r.spoken s) := by
  obtain ⟨name, hname⟩ := exists_localName? hs
  rw [spoken, hname, Option.getD_some]

theorem localNames_eq_map (r : Imports) :
    r.localNames = r.symbols.map fun s => (s, r.spoken s) := by
  rw [localNames, ← List.filterMap_eq_map]
  refine List.filterMap_congr fun s hs => ?_
  change (r.localName? s).map (s, ·) = _
  rw [localName?_eq_some_spoken hs]
  rfl

theorem map_fst_localNames (r : Imports) : r.localNames.map Prod.fst = r.symbols := by
  rw [localNames_eq_map, List.map_map]
  exact List.map_id _

/-- Where the symbols are in the order of their full paths, no group is out of order. -/
theorem assignment_of_sorted (h : r.symbols.Pairwise fun s t => s.fullPath ≤ t.fullPath) :
    r.assignment =
      (r.exportedNames.map fun name => r.symbols.filter (·.name == name)).foldl
        (Assignment.giveGroup r.reserved) { used := r.reserved ++ r.exportedNames } := by
  have hgroup (name : String) : r.group name = r.symbols.filter (·.name == name) :=
    List.mergeSort_of_pairwise ((h.filter _).imp fun hle => decide_eq_true hle)
  rw [assignment, funext hgroup]

/-- Whatever was noted, in whatever order, exactly the noted symbols are given local names. No two
are given one, and none is given a name that the file declares. A symbol keeps its name if no other
of that name has a lesser full path and the file does not declare it. Every other symbol takes the
first of its candidates that is not taken when it has its turn. -/
theorem local_names_are_first_free (notes : List Note) :
    let r := ofNotes notes
    (∀ s, s ∈ r.symbols ↔ .symbol s ∈ notes) ∧
    (∀ name, name ∈ r.reserved ↔ .name name ∈ notes) ∧
    r.localNames.map Prod.fst = r.symbols ∧
    (∀ p, p ∈ r.localNames ↔ r.localName? p.1 = some p.2) ∧
    (r.localNames.map Prod.snd).Nodup ∧
    ∀ p ∈ r.localNames, p.2 ∉ r.reserved ∧
      (¬ r.NeedsAlias p.1 → p.2 = p.1.name) ∧
      (r.NeedsAlias p.1 → IsFirstFree (r.Taken p.1) (aliasBase p.1) p.2) := by
  intro r
  have h : r.Holds notes := holds_ofNotes notes
  refine ⟨h.mem_symbols, h.mem_reserved, r.map_fst_localNames, fun p => mem_localNames_iff, ?_,
    fun p hp => ?_⟩
  · have hnodup : (r.localNames.map Prod.fst).Nodup := by
      rw [r.map_fst_localNames]
      exact Symbol.sorts_before.nodup h.sorted_symbols
    refine (hnodup.of_map Prod.fst).map_on fun p hp q hq heq => ?_
    rw [mem_localNames_iff] at hp hq
    exact Prod.ext (h.eq_of_localName?_eq hp (heq ▸ hq)) heq
  · have hname := mem_localNames_iff.mp hp
    exact ⟨localName?_not_reserved hname, h.eq_name_of_not_needsAlias hname,
      h.isFirstFree_of_needsAlias hname⟩

/-- Three symbols of one name. The alias of the others is the name of a fourth symbol, and the file
declares that name with the first number. -/
def crowdedNotes : List Note :=
  [.symbol ⟨"d", "BX"⟩, .name "BX2", .symbol ⟨"c::b", "X"⟩, .symbol ⟨"b", "X"⟩, .symbol ⟨"a", "X"⟩]

theorem crowdedNotes_local_names :
    (ofNotes crowdedNotes).localNames =
      [(⟨"a", "X"⟩, "X"), (⟨"b", "X"⟩, "BX3"), (⟨"c::b", "X"⟩, "BX4"), (⟨"d", "BX"⟩, "BX")] ∧
    IsFirstFree ((ofNotes crowdedNotes).Taken ⟨"c::b", "X"⟩) "BX" "BX4" := by
  have hnames : (ofNotes crowdedNotes).localNames =
      [(⟨"a", "X"⟩, "X"), (⟨"b", "X"⟩, "BX3"), (⟨"c::b", "X"⟩, "BX4"), (⟨"d", "BX"⟩, "BX")] := by
    rw [localNames, assignment_of_sorted (by decide +kernel)]
    decide +kernel
  have hneeds : (ofNotes crowdedNotes).NeedsAlias ⟨"c::b", "X"⟩ :=
    .inr ⟨⟨"a", "X"⟩, by decide +kernel, rfl, by decide +kernel⟩
  obtain ⟨-, -, -, -, -, hall⟩ := local_names_are_first_free crowdedNotes
  have hlast := hall (⟨"c::b", "X"⟩, "BX4") (by rw [hnames]; simp)
  exact ⟨hnames, hlast.2.2 hneeds⟩

end Imports

end Scaffold.Source
