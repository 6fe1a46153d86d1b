import Mathlib.Data.List.Pairwise
import Scaffold.Proofs.Rules
import Scaffold.Service.Routing

/-!
The routes that are routed. They keep the order of the descriptor, at most one of them on a path
serves every method, and no two of them on a path can meet in a request.
-/

namespace Scaffold

/-- Two method lists that cannot be registered on one path: both serve every method, or they share
one. -/
def MethodsMeet (ms ns : List Method) : Prop := (ms = [] ∧ ns = []) ∨ ∃ m ∈ ms, m ∈ ns

instance (ms ns : List Method) : Decidable (MethodsMeet ms ns) :=
  inferInstanceAs (Decidable (_ ∨ _))

theorem MethodsMeet.symm {ms ns : List Method} (h : MethodsMeet ms ns) : MethodsMeet ns ms := by
  rcases h with ⟨hm, hn⟩ | ⟨m, hm, hn⟩
  · exact Or.inl ⟨hn, hm⟩
  · exact Or.inr ⟨m, hn, hm⟩

theorem Route.overlaps_iff (methods : List Method) (r : Route) :
    r.overlaps methods = true ↔ MethodsMeet methods r.methods := by
  unfold Route.overlaps MethodsMeet
  cases methods with
  | nil => simp [Route.servesEveryMethod]
  | cons m ms => simp [Route.accepts]

namespace Route

/-- On one path, the routes do not meet. -/
def Apart (r s : Route) : Prop := r.path = s.path → ¬ MethodsMeet r.methods s.methods

instance : Std.Symm Apart := ⟨fun _ _ h hpath hmeet => h hpath.symm hmeet.symm⟩

end Route

namespace Descriptor

/-- The routes without a shadow among `rs`, given the routes before. -/
def routedAfter (earlier rs : List Route) : List Route :=
  ((shadowsAfter earlier rs).filter (·.2.isNone)).map (·.1)

theorem routedAfter_cons (earlier : List Route) (r : Route) (rs : List Route) :
    routedAfter earlier (r :: rs) =
      if shadow? earlier r = none then r :: routedAfter (earlier ++ [r]) rs
      else routedAfter (earlier ++ [r]) rs := by
  cases h : shadow? earlier r <;> simp [routedAfter, shadowsAfter, h]

theorem shadow?_eq_none_iff (earlier : List Route) (r : Route) :
    shadow? earlier r = none ↔
      (r.methods = [] → ∀ s ∈ earlier, s.path = r.path → s.methods ≠ []) := by
  unfold shadow? fallbackHandler?
  by_cases hr : r.methods = []
  · simp [Route.servesEveryMethod, hr]
  · simp [Route.servesEveryMethod, hr]

theorem sublist_routedAfter (earlier rs : List Route) : (routedAfter earlier rs).Sublist rs := by
  induction rs generalizing earlier with
  | nil => exact List.Sublist.refl []
  | cons r rs ih =>
    rw [routedAfter_cons]
    split
    · exact (ih _).cons_cons r
    · exact (ih _).cons r

/-- A routed route that serves every method has no such route on its path among those before. -/
theorem methods_ne_of_mem_routedAfter {earlier rs : List Route} {r s : Route}
    (hr : r ∈ routedAfter earlier rs) (hall : r.methods = []) (hs : s ∈ earlier)
    (hpath : s.path = r.path) : s.methods ≠ [] := by
  induction rs generalizing earlier with
  | nil => simp [routedAfter, shadowsAfter] at hr
  | cons x xs ih =>
    have hlater : r ∈ routedAfter (earlier ++ [x]) xs → s.methods ≠ [] := fun h =>
      ih h (List.mem_append_left [x] hs)
    rw [routedAfter_cons] at hr
    split at hr
    · next hshadow =>
      rcases List.mem_cons.mp hr with rfl | hr
      · exact (shadow?_eq_none_iff earlier r).mp hshadow hall s hs hpath
      · exact hlater hr
    · exact hlater hr

/-- Of the routed routes on a path at most one serves every method. -/
theorem pairwise_routedAfter (earlier rs : List Route) :
    (routedAfter earlier rs).Pairwise fun r s =>
      r.path = s.path → ¬ (r.methods = [] ∧ s.methods = []) := by
  induction rs generalizing earlier with
  | nil => exact List.Pairwise.nil
  | cons x xs ih =>
    rw [routedAfter_cons]
    split
    · refine List.pairwise_cons.mpr ⟨?_, ih _⟩
      rintro s hs hpath ⟨hx, hall⟩
      have hmem : x ∈ earlier ++ [x] := List.mem_append_right earlier (List.mem_singleton_self x)
      exact methods_ne_of_mem_routedAfter hs hall hmem hpath hx
    · exact ih _

theorem sublist_routed (d : Descriptor) : d.routed.Sublist d.routes :=
  sublist_routedAfter [] d.routes

/-- No two routed routes on one path meet in a method, or in serving every method. -/
theorem WellFormed.routed_apart {d : Descriptor} (h : d.WellFormed) :
    d.routed.Pairwise Route.Apart := by
  have hcompatible := h.routes_compatible.sublist d.sublist_routed
  have hfallback := pairwise_routedAfter [] d.routes
  apply (hcompatible.and hfallback).imp
  rintro r s ⟨hrs, hnot⟩ hpath (hboth | ⟨m, hr, hs⟩)
  · exact hnot hpath hboth
  · exact hrs.2 hpath hr hs

theorem WellFormed.eq_of_meet {d : Descriptor} (h : d.WellFormed) {r s : Route} (hr : r ∈ d.routed)
    (hs : s ∈ d.routed) (hpath : r.path = s.path) (hmeet : MethodsMeet r.methods s.methods) :
    r = s := by
  by_contra hne
  exact h.routed_apart.forall hr hs hne hpath hmeet

/-- The endpoints are the routed routes, each with whether its redirect has room. -/
theorem endpoints_eq (d : Descriptor) :
    d.endpoints = d.routed.map fun r =>
      { route := r, redirects := r.wantsRedirect && !(d.redirectBlocked r) } := by
  unfold endpoints wirings routed
  induction shadowsAfter [] d.routes with
  | nil => rfl
  | cons p ps ih =>
    obtain ⟨r, shadow⟩ := p
    cases shadow with
    | none =>
      have hhead : endpointOf? (r, d.wiringOf r none) =
          some { route := r, redirects := r.wantsRedirect && !(d.redirectBlocked r) } := rfl
      rw [List.map_cons, List.filterMap_cons_some hhead, ih]
      rfl
    | some handler =>
      have hhead : endpointOf? (r, d.wiringOf r (some handler)) = none := rfl
      rw [List.map_cons, List.filterMap_cons_none hhead, ih]
      rfl

theorem mem_endpoints_iff (d : Descriptor) (e : Endpoint) :
    e ∈ d.endpoints ↔ e.route ∈ d.routed ∧
      e.redirects = (e.route.wantsRedirect && !(d.redirectBlocked e.route)) := by
  rw [endpoints_eq, List.mem_map]
  constructor
  · rintro ⟨r, hr, rfl⟩
    exact ⟨hr, rfl⟩
  · rintro ⟨hr, hredirects⟩
    exact ⟨e.route, hr, by rw [← hredirects]⟩

theorem map_fst_wirings (d : Descriptor) : d.wirings.map Prod.fst = d.routes := by
  have hafter (earlier rs : List Route) : (shadowsAfter earlier rs).map Prod.fst = rs := by
    induction rs generalizing earlier with
    | nil => rfl
    | cons r rs ih => rw [shadowsAfter, List.map_cons, ih]
  rw [wirings, List.map_map]
  exact hafter [] d.routes

theorem fst_mem_routes {d : Descriptor} {p : Route × Wiring} (hp : p ∈ d.wirings) :
    p.1 ∈ d.routes := by
  rw [← d.map_fst_wirings]
  exact List.mem_map_of_mem hp

theorem route_mem_routes {d : Descriptor} {e : Endpoint} (he : e ∈ d.endpoints) :
    e.route ∈ d.routes :=
  d.sublist_routed.subset ((d.mem_endpoints_iff e).mp he).1

end Descriptor

end Scaffold
