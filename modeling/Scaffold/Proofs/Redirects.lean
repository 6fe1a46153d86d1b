import Scaffold.Proofs.RouteLoop
import Scaffold.Proofs.Slash

/-!
Redirects beside declared routes. A redirect is registered only where it meets no routed route, so a
declared route is never in its way, and it keeps no request from one. Two redirects are not compared
with each other: they can meet on the path between a path and the same path with two more slashes.
-/

namespace Scaffold

open Descriptor

variable {d : Descriptor} {e f : Endpoint}

theorem not_blocked_of_redirects (he : e ∈ d.endpoints) (hredirects : e.redirects = true) :
    d.redirectBlocked e.route = false := by
  have h := ((mem_endpoints_iff d e).mp he).2
  rw [hredirects, eq_comm, Bool.and_eq_true, Bool.not_eq_true'] at h
  exact h.2

theorem eq_of_route_eq (he : e ∈ d.endpoints) (hf : f ∈ d.endpoints) (h : e.route = f.route) :
    e = f := by
  have hredirects : e.redirects = f.redirects := by
    rw [((mem_endpoints_iff d e).mp he).2, ((mem_endpoints_iff d f).mp hf).2, h]
  cases e
  cases f
  simp_all

/-- A method of the handler trait is called by one endpoint. -/
theorem eq_of_methodName_eq (hd : d.WellFormed) (he : e ∈ d.endpoints) (hf : f ∈ d.endpoints)
    (h : Naming.methodName e.route.handler = Naming.methodName f.route.handler) : e = f := by
  apply eq_of_route_eq he hf
  by_contra hne
  exact (hd.routes_compatible.forall (route_mem_routes he) (route_mem_routes hf) hne).1 h

/-- Endpoints that meet on one path are the same. -/
theorem eq_of_own_meet (hd : d.WellFormed) (he : e ∈ d.endpoints) (hf : f ∈ d.endpoints)
    (hpath : e.route.path = f.route.path) (hmeet : MethodsMeet e.route.methods f.route.methods) :
    e = f := by
  have her := ((mem_endpoints_iff d e).mp he).1
  have hfr := ((mem_endpoints_iff d f).mp hf).1
  exact eq_of_route_eq he hf (hd.eq_of_meet her hfr hpath hmeet)

/-- A redirect meets no endpoint on the path it leaves from. -/
theorem not_meet_redirection (he : e ∈ d.endpoints) (hf : f ∈ d.endpoints)
    (hredirects : f.redirects = true) (hpath : e.route.path = toggleTrailingSlash f.route.path) :
    ¬ MethodsMeet f.route.methods e.route.methods := by
  intro hmeet
  have hblocked : d.redirectBlocked f.route = true := by
    refine List.any_eq_true.mpr ⟨e.route, ((mem_endpoints_iff d e).mp he).1, ?_⟩
    rw [Bool.and_eq_true, beq_iff_eq]
    exact ⟨hpath, (Route.overlaps_iff _ _).mpr hmeet⟩
  rw [not_blocked_of_redirects hf hredirects] at hblocked
  exact Bool.false_ne_true hblocked

namespace Registration

theorem Clashes.symm {x y : Registration} (h : x.Clashes y) : y.Clashes x :=
  ⟨h.1.symm, h.2.symm⟩

end Registration

namespace Endpoint

/-- Both endpoints redirect, from one path, and the redirects meet there: the path has one slash
more than the one endpoint and one less than the other. -/
structure RedirectsMeet (e f : Endpoint) : Prop where
  left_redirects : e.redirects = true
  right_redirects : f.redirects = true
  slashes_apart : SlashesApart e.route.path f.route.path
  methods_meet : MethodsMeet e.route.methods f.route.methods

instance (e f : Endpoint) : Decidable (e.RedirectsMeet f) :=
  decidable_of_iff
    (e.redirects = true ∧ f.redirects = true ∧ SlashesApart e.route.path f.route.path ∧
      MethodsMeet e.route.methods f.route.methods)
    ⟨fun h => ⟨h.1, h.2.1, h.2.2.1, h.2.2.2⟩,
      fun h => ⟨h.left_redirects, h.right_redirects, h.slashes_apart, h.methods_meet⟩⟩

theorem RedirectsMeet.clashes (h : e.RedirectsMeet f) : e.redirection.Clashes f.redirection :=
  ⟨(toggleTrailingSlash_eq_iff _ _).mpr (Or.inr (Or.inl h.slashes_apart)), h.methods_meet⟩

/-- The registrations of the one endpoint and those of the other can stand beside each other. -/
def Beside (d : Descriptor) (e f : Endpoint) : Prop :=
  ∀ x ∈ e.registrations d, ∀ y ∈ f.registrations d, ¬ x.Clashes y

instance (d : Descriptor) : Std.Symm (Beside d) :=
  ⟨fun _ _ h y hy x hx hclash => h x hx y hy hclash.symm⟩

theorem pairwise_registrations (d : Descriptor) (e : Endpoint) :
    (e.registrations d).Pairwise fun x y => ¬ x.Clashes y := by
  unfold registrations
  cases e.redirects with
  | false => simp
  | true =>
    apply List.pairwise_pair.mpr
    rintro ⟨hpath, -⟩
    exact toggleTrailingSlash_ne e.route.path hpath.symm

/-- Two endpoints that do not meet themselves stand beside each other unless their redirects
meet. -/
theorem beside_of_not_redirectsMeet (he : e ∈ d.endpoints) (hf : f ∈ d.endpoints)
    (happart : e.route.Apart f.route) (hef : ¬ e.RedirectsMeet f) (hfe : ¬ f.RedirectsMeet e) :
    Beside d e f := by
  intro x hx y hy
  rcases (mem_registrations_iff d e x).mp hx with rfl | ⟨heredirects, rfl⟩ <;>
    rcases (mem_registrations_iff d f y).mp hy with rfl | ⟨hfredirects, rfl⟩ <;>
    rintro ⟨hpath, hmeet⟩
  · exact happart hpath hmeet
  · exact not_meet_redirection he hf hfredirects hpath hmeet.symm
  · exact not_meet_redirection hf he heredirects hpath.symm hmeet
  · rcases (toggleTrailingSlash_eq_iff _ _).mp hpath with hpath | hapart | hapart
    · exact happart hpath hmeet
    · exact hef ⟨heredirects, hfredirects, hapart, hmeet⟩
    · exact hfe ⟨hfredirects, heredirects, hapart, hmeet.symm⟩

end Endpoint

theorem pairwise_endpoints_apart (hd : d.WellFormed) :
    d.endpoints.Pairwise fun e f => e.route.Apart f.route := by
  rw [endpoints_eq, List.pairwise_map]
  exact hd.routed_apart

/-- The generated router starts without a clash exactly if no two redirects meet. -/
theorem registrations_clash_iff_redirects_meet (d : Descriptor) (hd : d.Reachable) :
    ∃ registrations, d.registrations? = some registrations ∧
      (registrations.Pairwise (fun x y => ¬ x.Clashes y) ↔
        ∀ e ∈ d.endpoints, ∀ f ∈ d.endpoints, ¬ e.RedirectsMeet f) := by
  refine ⟨d.registrations, d.registrations?_eq, ?_⟩
  have hflat : d.registrations.Pairwise (fun x y => ¬ x.Clashes y) ↔
      d.endpoints.Pairwise (Endpoint.Beside d) := by
    rw [Descriptor.registrations, List.pairwise_flatMap]
    exact and_iff_right fun e _ => e.pairwise_registrations d
  rw [hflat]
  constructor
  · intro hbeside e he f hf hmeet
    have hne : e ≠ f := by
      rintro rfl
      exact hmeet.slashes_apart.1 ((endsInSlash_iff _).mpr
        ⟨e.route.path ++ "/", by rw [← append_double_slash]; exact hmeet.slashes_apart.2⟩)
    have hleft : e.redirection ∈ e.registrations d :=
      (e.mem_registrations_iff d _).mpr (Or.inr ⟨hmeet.left_redirects, rfl⟩)
    have hright : f.redirection ∈ f.registrations d :=
      (f.mem_registrations_iff d _).mpr (Or.inr ⟨hmeet.right_redirects, rfl⟩)
    exact hbeside.forall he hf hne _ hleft _ hright hmeet.clashes
  · intro hnone
    apply (pairwise_endpoints_apart hd.wellFormed).imp_of_mem
    intro e f he hf happart
    exact Endpoint.beside_of_not_redirectsMeet he hf happart (hnone e he f hf) (hnone f hf e he)

/-- Redirects of two routes leave from one path, beside a route that is declared there. -/
def crowdedPath : Descriptor :=
  (base { name := "fleet" }).afterAll
    [.addRoute { path := "/ships", strictSlash := true, methods := [.get], handler := "Ships" },
     .addRoute { path := "/ships/", handler := "Harbour" },
     .addRoute { path := "/ships//", strictSlash := true, methods := [.put], handler := "Wrecks" }]

theorem crowdedPath_registrations_stand :
    crowdedPath.Reachable ∧ (crowdedPath.endpoints.map (·.redirects)) = [true, false, true] ∧
      ∃ registrations, crowdedPath.registrations? = some registrations ∧
        registrations.Pairwise fun x y => ¬ x.Clashes y := by
  have hreachable : crowdedPath.Reachable := (Reachable.base _).afterAll _
  obtain ⟨registrations, hread, hstand⟩ :=
    registrations_clash_iff_redirects_meet crowdedPath hreachable
  exact ⟨hreachable, by decide +kernel, registrations, hread, hstand.mpr (by decide +kernel)⟩

/-- Two routes that differ by two slashes and both redirect from the path between them. -/
def slashesApart : Descriptor :=
  (base { name := "fleet" }).afterAll
    [.addRoute { path := "/ships", strictSlash := true, methods := [.get], handler := "Ships" },
     .addRoute { path := "/ships//", strictSlash := true, methods := [.get], handler := "Wrecks" }]

theorem slashesApart_registrations_clash :
    slashesApart.Reachable ∧ slashesApart.registrations? = some
      [{ path := "/ships", methods := [.get],
         answer := .handler ⟨"crate::gen::interface", "FleetHandler"⟩ "ships" },
       { path := "/ships/", methods := [.get], answer := .redirect },
       { path := "/ships//", methods := [.get],
         answer := .handler ⟨"crate::gen::interface", "FleetHandler"⟩ "wrecks" },
       { path := "/ships/", methods := [.get], answer := .redirect }] ∧
      ∀ registrations, slashesApart.registrations? = some registrations →
        ¬ registrations.Pairwise fun x y => ¬ x.Clashes y := by
  have hread : slashesApart.registrations? = some slashesApart.registrations :=
    slashesApart.registrations?_eq
  refine ⟨(Reachable.base _).afterAll _, by rw [hread]; decide +kernel, ?_⟩
  intro registrations h
  obtain rfl := Option.some.inj (hread.symm.trans h)
  decide +kernel

end Scaffold
