import Mathlib.Data.List.Basic
import Scaffold.Proofs.Routed

/-!
The fallback of a path is the first route on it that serves every method. It is never shadowed, and
it is what shadows all later routes of that kind, so it alone of them is routed. Routes are told
apart by their positions, because a descriptor in general may hold one route twice.
-/

namespace Scaffold.Descriptor

variable {routes : List Route} {path : String} {i j : ℕ} {r s : Route}

/-- The route serves every method, and so does one of those before it on its path. -/
def Shadowed (before : List Route) (r : Route) : Prop :=
  r.methods = [] ∧ ∃ s ∈ before, s.path = r.path ∧ s.methods = []

instance (before : List Route) (r : Route) : Decidable (Shadowed before r) :=
  inferInstanceAs (Decidable (_ ∧ _))

theorem shadow?_eq_none_iff_not_shadowed (before : List Route) (r : Route) :
    shadow? before r = none ↔ ¬ Shadowed before r := by
  rw [shadow?_eq_none_iff]
  constructor
  · rintro hnone ⟨hall, s, hs, hpath, hs'⟩
    exact hnone hall s hs hpath hs'
  · intro hnot hall s hs hpath hs'
    exact hnot ⟨hall, s, hs, hpath, hs'⟩

/-- Route `i` is the first on the path to serve every method. -/
structure IsFallback (routes : List Route) (path : String) (i : ℕ) (r : Route) : Prop where
  getElem?_eq : routes[i]? = some r
  path_eq : r.path = path
  methods_eq : r.methods = []
  first : ∀ j < i, ∀ s, routes[j]? = some s → s.path = path → s.methods ≠ []

theorem IsFallback.unique (hi : IsFallback routes path i r) (hj : IsFallback routes path j s) :
    i = j := by
  by_contra hne
  rcases Nat.lt_or_gt_of_ne hne with hlt | hlt
  · exact hj.first i hlt r hi.getElem?_eq hi.path_eq hi.methods_eq
  · exact hi.first j hlt s hj.getElem?_eq hj.path_eq hj.methods_eq

theorem mem_take_iff (routes : List Route) (i : ℕ) (s : Route) :
    s ∈ routes.take i ↔ ∃ j < i, routes[j]? = some s := by
  rw [List.mem_iff_getElem?]
  simp only [List.getElem?_take]
  constructor
  · rintro ⟨j, hj⟩
    split at hj
    · next hlt => exact ⟨j, hlt, hj⟩
    · cases hj
  · rintro ⟨j, hlt, hj⟩
    exact ⟨j, by rw [if_pos hlt, hj]⟩

/-- Of the routes that serve every method, those that are not shadowed are the first on their
paths. -/
theorem isFallback_iff_not_shadowed (hr : routes[i]? = some r) (hall : r.methods = []) :
    IsFallback routes r.path i r ↔ ¬ Shadowed (routes.take i) r := by
  constructor
  · rintro hfallback ⟨-, s, hs, hpath, hs'⟩
    obtain ⟨j, hlt, hj⟩ := (mem_take_iff routes i s).mp hs
    exact hfallback.first j hlt s hj hpath hs'
  · intro hnot
    refine ⟨hr, rfl, hall, ?_⟩
    intro j hlt s hj hpath hs'
    exact hnot ⟨hall, s, (mem_take_iff routes i s).mpr ⟨j, hlt, hj⟩, hpath, hs'⟩

theorem isFallback_of_find?
    (h : (routes.find? fun r => r.path == path && r.servesEveryMethod) = some r) :
    ∃ i, IsFallback routes path i r := by
  obtain ⟨hkind, i, hi, hget, hfirst⟩ := List.find?_eq_some_iff_getElem.mp h
  rw [Bool.and_eq_true, beq_iff_eq, Route.servesEveryMethod, List.isEmpty_iff] at hkind
  refine ⟨i, by rw [List.getElem?_eq_getElem hi, hget], hkind.1, hkind.2, ?_⟩
  intro j hlt s hj hpath hs
  obtain ⟨hj', rfl⟩ := List.getElem?_eq_some_iff.mp hj
  have hother := hfirst j hlt
  simp [Route.servesEveryMethod, hpath, hs] at hother

/-- A path with a route that serves every method has a first such route. -/
theorem exists_isFallback (hr : r ∈ routes) (hpath : r.path = path) (hall : r.methods = []) :
    ∃ i s, IsFallback routes path i s := by
  cases hfind : routes.find? fun r => r.path == path && r.servesEveryMethod with
  | none =>
    have hnot := List.find?_eq_none.mp hfind r hr
    simp [Route.servesEveryMethod, hpath, hall] at hnot
  | some s =>
    obtain ⟨i, hi⟩ := isFallback_of_find? hfind
    exact ⟨i, s, hi⟩

/-- A fallback among the first routes is one among all. -/
theorem IsFallback.of_take (h : IsFallback (routes.take i) path j r) :
    IsFallback routes path j r := by
  have hget := h.getElem?_eq
  rw [List.getElem?_take] at hget
  split at hget
  · next hlt =>
    refine ⟨hget, h.path_eq, h.methods_eq, ?_⟩
    intro k hk s hs
    refine h.first k hk s ?_
    rw [List.getElem?_take, if_pos (Nat.lt_trans hk hlt), hs]
  · cases hget

/-- What shadows a route is the fallback of its path. -/
theorem isFallback_of_shadow? {handler : String} (h : shadow? (routes.take i) r = some handler) :
    ∃ j s, IsFallback routes r.path j s ∧ s.handler = handler := by
  unfold shadow? fallbackHandler? at h
  split at h
  · obtain ⟨s, hfind, hhandler⟩ := Option.map_eq_some_iff.mp h
    obtain ⟨j, hj⟩ := isFallback_of_find? hfind
    exact ⟨j, s, hj.of_take, hhandler⟩
  · cases h

theorem getElem?_shadowsAfter (earlier rs : List Route) (i : ℕ) :
    (shadowsAfter earlier rs)[i]? =
      rs[i]?.map fun r => (r, shadow? (earlier ++ rs.take i) r) := by
  induction rs generalizing earlier i with
  | nil => rfl
  | cons r rs ih =>
    cases i with
    | zero => simp [shadowsAfter]
    | succ i => simp [shadowsAfter, ih, List.append_assoc]

theorem getElem?_wirings (d : Descriptor) (i : ℕ) :
    d.wirings[i]? = d.routes[i]?.map fun r => (r, d.wiringOf r (shadow? (d.routes.take i) r)) := by
  rw [wirings, List.getElem?_map, getElem?_shadowsAfter, Option.map_map]
  rfl

theorem length_wirings (d : Descriptor) : d.wirings.length = d.routes.length := by
  rw [← map_fst_wirings, List.length_map]

/-- The routes that are not shadowed, in their order. -/
def unshadowed (routes : List Route) : List Route :=
  (routes.zipIdx.filter fun p => ¬ Shadowed (routes.take p.2) p.1).map Prod.fst

theorem shadowsAfter_nil_eq (routes : List Route) :
    shadowsAfter [] routes =
      routes.zipIdx.map fun p => (p.1, shadow? (routes.take p.2) p.1) := by
  apply List.ext_getElem?
  intro i
  rw [getElem?_shadowsAfter, List.getElem?_map, List.getElem?_zipIdx, Option.map_map]
  simp [Function.comp_def]

theorem routed_eq (d : Descriptor) : d.routed = unshadowed d.routes := by
  have hkept (p : Route × ℕ) : (shadow? (d.routes.take p.2) p.1).isNone =
      decide (¬ Shadowed (d.routes.take p.2) p.1) := by
    rw [Bool.eq_iff_iff, Option.isNone_iff_eq_none, decide_eq_true_eq]
    exact shadow?_eq_none_iff_not_shadowed _ _
  rw [routed, shadowsAfter_nil_eq, List.filter_map, List.map_map, unshadowed]
  simp only [Function.comp_def, hkept]

theorem mem_routed_iff (d : Descriptor) (r : Route) :
    r ∈ d.routed ↔ ∃ i, d.routes[i]? = some r ∧ ¬ Shadowed (d.routes.take i) r := by
  rw [routed_eq, unshadowed]
  simp [List.mem_zipIdx_iff_getElem?]

/-- A route that lists methods is routed. -/
theorem mem_routed_of_methods_ne {d : Descriptor} (hr : r ∈ d.routes) (hlists : r.methods ≠ []) :
    r ∈ d.routed := by
  obtain ⟨i, hi⟩ := List.mem_iff_getElem?.mp hr
  exact (mem_routed_iff d r).mpr ⟨i, hi, fun hshadowed => hlists hshadowed.1⟩

end Scaffold.Descriptor
