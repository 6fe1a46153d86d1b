import Scaffold.Proofs.Dispatch
import Scaffold.Proofs.Fallbacks

/-!
Requests on the path of a route. A method that a route lists is registered on its path once, for
that route. All other methods go to the fallback of the path, up to those for which the path
redirects: a redirect gives way only to a route that it cannot be registered beside, and one that
lists methods can be registered beside a fallback.
-/

namespace Scaffold

open Descriptor

namespace Descriptor

/-- The answer of the handler of a route, a method of the handler trait. -/
def answerOf (d : Descriptor) (r : Route) : Answer :=
  .handler (Service.contractItem (Service.Names.ofProject d.info.name).handler)
    (Naming.methodName r.handler)

end Descriptor

variable {d : Descriptor} {e f : Endpoint} {r : Route} {m : Method}

theorem exists_endpoint_of_mem_routed (hr : r ∈ d.routed) : ∃ e ∈ d.endpoints, e.route = r :=
  ⟨{ route := r, redirects := r.wantsRedirect && !(d.redirectBlocked r) },
    (mem_endpoints_iff d _).mpr ⟨hr, rfl⟩, rfl⟩

theorem MethodsMeet.refl (ms : List Method) : MethodsMeet ms ms := by
  cases ms with
  | nil => exact Or.inl ⟨rfl, rfl⟩
  | cons m ms => exact Or.inr ⟨m, List.mem_cons_self, List.mem_cons_self⟩

theorem nodup_endpoints (hd : d.WellFormed) : d.endpoints.Nodup := by
  apply (pairwise_endpoints_apart hd).imp
  rintro e f happart rfl
  exact happart rfl (MethodsMeet.refl _)

/-- The registrations that a request for the method on the path finds listed. -/
def listedAt (registrations : List Registration) (path : String) (m : Method) : List Registration :=
  registrations.filter fun x => x.path = path ∧ m ∈ x.methods

theorem listedAt_own (hm : m ∈ e.route.methods) :
    listedAt (e.registrations d) e.route.path m = [e.own d] := by
  have hown : (e.own d).path = e.route.path ∧ m ∈ (e.own d).methods := ⟨rfl, hm⟩
  have hredirection : ¬ (e.redirection.path = e.route.path ∧ m ∈ e.redirection.methods) :=
    fun h => toggleTrailingSlash_ne e.route.path h.1
  unfold listedAt Endpoint.registrations
  cases e.redirects <;> simp [hown, hredirection]

theorem listedAt_other (hd : d.WellFormed) (he : e ∈ d.endpoints) (hm : m ∈ e.route.methods)
    (hf : f ∈ d.endpoints) (hne : f ≠ e) :
    listedAt (f.registrations d) e.route.path m = [] := by
  rw [listedAt, List.filter_eq_nil_iff]
  intro x hx
  rw [decide_eq_true_eq]
  rintro ⟨hpath, hxm⟩
  have hmeet : MethodsMeet e.route.methods x.methods := methodsMeet_of_mem hm hxm
  rcases (f.mem_registrations_iff d x).mp hx with rfl | ⟨hredirects, rfl⟩
  · exact hne (eq_of_own_meet hd he hf hpath.symm hmeet).symm
  · exact not_meet_redirection he hf hredirects hpath.symm hmeet.symm

/-- A method that an endpoint lists is listed on its path once, by the endpoint. -/
theorem listedAt_registrations (hd : d.WellFormed) (he : e ∈ d.endpoints)
    (hm : m ∈ e.route.methods) : listedAt d.registrations e.route.path m = [e.own d] := by
  obtain ⟨before, after, hsplit⟩ := List.append_of_mem he
  have hnodup := nodup_endpoints hd
  rw [hsplit, List.nodup_middle, List.nodup_cons] at hnodup
  have hothers : ∀ es : List Endpoint, es ⊆ before ++ after →
      listedAt (es.flatMap (Endpoint.registrations d)) e.route.path m = [] := by
    intro es hes
    rw [listedAt, List.filter_flatMap, List.flatMap_eq_nil_iff]
    intro f hf
    have hmem := hes hf
    refine listedAt_other hd he hm ?_ ?_
    · rw [hsplit]
      rcases List.mem_append.mp hmem with hf | hf
      · exact List.mem_append_left _ hf
      · exact List.mem_append_right _ (List.mem_cons_of_mem e hf)
    · rintro rfl
      exact hnodup.1 hmem
  calc
    listedAt d.registrations e.route.path m =
        listedAt (before.flatMap (Endpoint.registrations d)) e.route.path m ++
          (listedAt (e.registrations d) e.route.path m ++
            listedAt (after.flatMap (Endpoint.registrations d)) e.route.path m) := by
      simp only [listedAt, Descriptor.registrations, hsplit, List.flatMap_append,
        List.flatMap_cons, List.filter_append]
    _ = [e.own d] := by
      rw [hothers before (List.subset_append_left _ _),
        hothers after (List.subset_append_right _ _), listedAt_own hm]
      rfl

/-- A declared pair of a path and a method has one registration, that of the route that declares it;
no redirect and no other route gets its requests. -/
theorem declared_method_registered_once (d : Descriptor) (hd : d.Reachable) (r : Route)
    (hr : r ∈ d.routes) (m : Method) (hm : m ∈ r.methods) :
    ∃ registrations records e, d.registrations? = some registrations ∧
      Service.fileRecords? (Service.bootstrap d) = some records ∧ e ∈ records ∧
      e.path = r.path ∧ (∀ k, k ∈ e.methods ↔ k ∈ r.methods) ∧
      Answer.handler e.capability e.handler = d.answerOf r ∧
      (∀ other ∈ records, other.handler = e.handler → other = e) ∧
      listedAt registrations r.path m =
        [{ path := e.path, methods := e.methods, answer := .handler e.capability e.handler }] ∧
      dispatch registrations r.path m = some (d.answerOf r) := by
  have hlists : r.methods ≠ [] := List.ne_nil_of_mem hm
  obtain ⟨e, he, rfl⟩ := exists_endpoint_of_mem_routed (mem_routed_of_methods_ne hr hlists)
  have hrecords := Service.fileRecords?_bootstrap d
  refine ⟨d.registrations, _, Service.recordOf (.ofProject d.info.name) e, d.registrations?_eq,
    hrecords, List.mem_map_of_mem he, rfl, fun k => Iff.rfl, rfl, ?_,
    listedAt_registrations hd.wellFormed he hm, dispatch_own hd.wellFormed he (Or.inl hm)⟩
  intro other hother hname
  obtain ⟨f, hf, rfl⟩ := List.mem_map.mp hother
  rw [eq_of_methodName_eq hd.wellFormed hf he hname]

def ships : Route := { path := "/ships/", methods := [.get, .put], handler := "Ships" }

/-- The redirect to the second route would leave from the path of the first. -/
def shipsAndWrecks : Descriptor :=
  (base { name := "fleet" }).afterAll
    [.addRoute ships,
     .addRoute { path := "/ships", strictSlash := true, methods := [.put], handler := "Wrecks" }]

theorem ships_put_registered_once :
    shipsAndWrecks.Reachable ∧ ships ∈ shipsAndWrecks.routes ∧ .put ∈ ships.methods ∧
      ∃ registrations, shipsAndWrecks.registrations? = some registrations ∧
        (listedAt registrations ships.path .put).map (·.answer) =
          [shipsAndWrecks.answerOf ships] ∧
        dispatch registrations ships.path .put = some (shipsAndWrecks.answerOf ships) := by
  have hreachable : shipsAndWrecks.Reachable := (Reachable.base _).afterAll _
  have hmem : ships ∈ shipsAndWrecks.routes := by decide +kernel
  have hput : .put ∈ ships.methods := by decide
  obtain ⟨registrations, -, e, hread, -, -, -, -, hanswer, -, honce, hdispatch⟩ :=
    declared_method_registered_once shipsAndWrecks hreachable ships hmem .put hput
  refine ⟨hreachable, hmem, hput, registrations, hread, ?_, hdispatch⟩
  rw [honce, ← hanswer]
  rfl

/-- The path redirects to the route for the method, because the route asks for it, lists the method,
and shares none with the routes declared on the path. -/
structure RedirectsFrom (d : Descriptor) (path : String) (m : Method) (r : Route) : Prop where
  mem : r ∈ d.routes
  strict_slash : r.strictSlash = true
  path_ne_root : r.path ≠ "/"
  toggled : toggleTrailingSlash r.path = path
  lists : m ∈ r.methods
  room : ∀ s ∈ d.routes, s.path = path → r.methods.Disjoint s.methods

theorem redirectBlocked_eq_false_iff (d : Descriptor) (hlists : r.methods ≠ []) :
    d.redirectBlocked r = false ↔
      ∀ s ∈ d.routes, s.path = toggleTrailingSlash r.path → r.methods.Disjoint s.methods := by
  simp only [redirectBlocked, List.any_eq_false, Bool.and_eq_true, beq_iff_eq,
    Route.overlaps_iff, not_and]
  constructor
  · intro hnone s hs hpath k hk hks
    have hrouted := mem_routed_of_methods_ne hs (List.ne_nil_of_mem hks)
    exact hnone s hrouted hpath (methodsMeet_of_mem hk hks)
  · rintro hdisjoint s hs hpath (⟨hnil, -⟩ | ⟨k, hk, hks⟩)
    · exact hlists hnil
    · exact hdisjoint s (d.sublist_routed.subset hs) hpath hk hks

/-- The redirects of the endpoints, as conditions on the routes alone. -/
theorem exists_redirectsFrom_iff (d : Descriptor) (path : String) (m : Method) :
    (∃ r, RedirectsFrom d path m r) ↔
      ∃ e ∈ d.endpoints, e.redirects = true ∧ e.redirection.path = path ∧
        m ∈ e.redirection.methods := by
  constructor
  · rintro ⟨r, hr⟩
    have hlists := List.ne_nil_of_mem hr.lists
    obtain ⟨e, he, rfl⟩ := exists_endpoint_of_mem_routed (mem_routed_of_methods_ne hr.mem hlists)
    have hfree : d.redirectBlocked e.route = false := by
      rw [redirectBlocked_eq_false_iff d hlists, hr.toggled]
      exact hr.room
    have hwants : e.route.wantsRedirect = true := by
      simp [Route.wantsRedirect, hr.strict_slash, hr.path_ne_root]
    refine ⟨e, he, ?_, hr.toggled, hr.lists⟩
    rw [((mem_endpoints_iff d e).mp he).2, hwants, hfree]
    rfl
  · rintro ⟨e, he, hredirects, rfl, hm⟩
    have hwants := wantsRedirect_of_redirects he hredirects
    simp only [Route.wantsRedirect, Bool.and_eq_true, bne_iff_ne] at hwants
    have hroom := (redirectBlocked_eq_false_iff d (List.ne_nil_of_mem hm)).mp
      (not_blocked_of_redirects he hredirects)
    exact ⟨e.route, route_mem_routes he, hwants.1, hwants.2, rfl, hm, hroom⟩

section

variable (he : e ∈ d.endpoints) (hfree : ∀ s ∈ d.routes, s.path = e.route.path → m ∉ s.methods)

include hfree

/-- Only a redirect can be registered for a method that no route on the path lists. -/
theorem exists_redirection_of_listed {x : Registration} (hx : x ∈ d.registrations)
    (hpath : x.path = e.route.path) (hm : m ∈ x.methods) :
    ∃ f ∈ d.endpoints, f.redirects = true ∧ x = f.redirection := by
  obtain ⟨f, hf, rfl | ⟨hredirects, rfl⟩⟩ := (mem_registrations_iff d x).mp hx
  · exact absurd hm (hfree f.route (route_mem_routes hf) hpath)
  · exact ⟨f, hf, hredirects, rfl⟩

theorem dispatch_redirected (h : ∃ r, RedirectsFrom d e.route.path m r) :
    dispatch d.registrations e.route.path m = some .redirect := by
  obtain ⟨f, hf, hredirects, hpath, hm⟩ := (exists_redirectsFrom_iff d _ m).mp h
  have hmem := redirection_mem_registrations hf hredirects
  refine dispatch_of_listed ⟨_, hmem, hpath, hm⟩ ?_
  rintro x hx ⟨hxpath, hxm⟩
  obtain ⟨g, -, -, rfl⟩ := exists_redirection_of_listed hfree hx hxpath hxm
  rfl

include he

theorem dispatch_fallback (hd : d.WellFormed) (hall : e.route.methods = [])
    (h : ¬ ∃ r, RedirectsFrom d e.route.path m r) :
    dispatch d.registrations e.route.path m = some (e.answer d) := by
  refine dispatch_of_fallback ?_ ⟨_, own_mem_registrations he, rfl, hall⟩ ?_
  · rintro x hx ⟨hpath, hm⟩
    obtain ⟨f, hf, hredirects, rfl⟩ := exists_redirection_of_listed hfree hx hpath hm
    exact h ((exists_redirectsFrom_iff d _ m).mpr ⟨f, hf, hredirects, hpath, hm⟩)
  · rintro x hx ⟨hpath, hx'⟩
    exact answer_of_meet_own hd he hx hpath (methodsMeet_of_nil hall hx')

end

/-- For a method that no route on the path lists, the fallback of the path answers exactly if the
path does not redirect for the method; if it does, the redirect answers. -/
theorem fallback_answers_iff (d : Descriptor) (hd : d.Reachable) (i : ℕ) (f : Route)
    (hf : IsFallback d.routes f.path i f) (m : Method)
    (hfree : ∀ s ∈ d.routes, s.path = f.path → m ∉ s.methods) :
    ∃ registrations, d.registrations? = some registrations ∧
      (dispatch registrations f.path m = some (d.answerOf f) ↔
        ¬ ∃ r, RedirectsFrom d f.path m r) ∧
      (dispatch registrations f.path m = some .redirect ↔ ∃ r, RedirectsFrom d f.path m r) := by
  have hnot := (isFallback_iff_not_shadowed hf.getElem?_eq hf.methods_eq).mp hf
  have hrouted : f ∈ d.routed := (mem_routed_iff d f).mpr ⟨i, hf.getElem?_eq, hnot⟩
  obtain ⟨e, he, rfl⟩ := exists_endpoint_of_mem_routed hrouted
  refine ⟨d.registrations, d.registrations?_eq, ?_⟩
  have hanswer : some (d.answerOf e.route) ≠ some Answer.redirect := by
    simp [Descriptor.answerOf]
  by_cases h : ∃ r, RedirectsFrom d e.route.path m r
  · have hdispatch := dispatch_redirected hfree h
    rw [hdispatch]
    exact ⟨⟨fun heq => absurd heq.symm hanswer, fun hnone => absurd h hnone⟩,
      fun _ => h, fun _ => rfl⟩
  · have hdispatch := dispatch_fallback he hfree hd.wellFormed hf.methods_eq h
    rw [hdispatch]
    exact ⟨⟨fun _ => h, fun _ => rfl⟩, fun heq => absurd heq hanswer, fun hsome => absurd hsome h⟩

/-- A fallback on the path that the redirect to another route leaves from. -/
def harbour : Route := { path := "/ships/", handler := "Harbour" }

def harbourFleet : Descriptor :=
  (base { name := "fleet" }).afterAll
    [.addRoute { path := "/ships", strictSlash := true, methods := [.get], handler := "Ships" },
     .addRoute harbour]

theorem isFallback_harbour : IsFallback harbourFleet.routes harbour.path 1 harbour :=
  (isFallback_iff_not_shadowed (by decide +kernel) rfl).mpr (by decide +kernel)

theorem fallback_answers_harbour :
    harbourFleet.Reachable ∧ IsFallback harbourFleet.routes harbour.path 1 harbour ∧
      ∃ registrations, harbourFleet.registrations? = some registrations ∧
        dispatch registrations harbour.path .post = some (harbourFleet.answerOf harbour) := by
  have hreachable : harbourFleet.Reachable := (Reachable.base _).afterAll _
  have hpost : ¬ ∃ r, RedirectsFrom harbourFleet harbour.path .post r := by
    rw [exists_redirectsFrom_iff]
    decide +kernel
  obtain ⟨registrations, hread, hanswers, -⟩ :=
    fallback_answers_iff harbourFleet hreachable 1 harbour isFallback_harbour .post
      (by decide +kernel)
  exact ⟨hreachable, isFallback_harbour, registrations, hread, hanswers.mpr hpost⟩

/-- No route on the path lists the method, and yet the fallback does not get the request. -/
theorem harbour_loses_get_to_redirect :
    harbourFleet.Reachable ∧ IsFallback harbourFleet.routes harbour.path 1 harbour ∧
      (∀ s ∈ harbourFleet.routes, s.path = harbour.path → Method.get ∉ s.methods) ∧
      ∃ registrations, harbourFleet.registrations? = some registrations ∧
        dispatch registrations harbour.path .get = some .redirect ∧
        dispatch registrations harbour.path .get ≠ some (harbourFleet.answerOf harbour) := by
  refine ⟨(Reachable.base _).afterAll _, isFallback_harbour, by decide +kernel, _,
    registrations?_eq _, ?_⟩
  decide +kernel

end Scaffold
