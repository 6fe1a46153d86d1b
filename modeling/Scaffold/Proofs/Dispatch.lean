import Scaffold.Proofs.Redirects

/-!
Requests at the generated router. A request on the toggled path of a redirecting endpoint is
answered by the redirect, and one on its own path by its own handler. Whether a followed redirect
arrives at that handler depends on the path alone: the target is toggled back from the path of the
request.
-/

namespace Scaffold

open Descriptor

section

variable {registrations : List Registration} {path : String} {m : Method} {a : Answer}
variable {kind : Registration → Prop} [DecidablePred kind]

theorem exists_of_answerOf?_eq_some (h : answerOf? registrations kind = some a) :
    ∃ x ∈ registrations, kind x ∧ x.answer = a := by
  obtain ⟨x, hfind, hanswer⟩ := Option.map_eq_some_iff.mp h
  have hkind := List.find?_some hfind
  exact ⟨x, List.mem_of_find?_eq_some hfind, of_decide_eq_true hkind, hanswer⟩

theorem answerOf?_eq_none (hnone : ∀ x ∈ registrations, ¬ kind x) :
    answerOf? registrations kind = none := by
  rw [answerOf?, Option.map_eq_none_iff, List.find?_eq_none]
  intro x hx
  rw [decide_eq_true_eq]
  exact hnone x hx

/-- If there is a registration of the kind and all such answer alike, so does the first. -/
theorem answerOf?_eq_some (hsome : ∃ x ∈ registrations, kind x)
    (hall : ∀ x ∈ registrations, kind x → x.answer = a) :
    answerOf? registrations kind = some a := by
  cases h : answerOf? registrations kind with
  | none =>
    obtain ⟨x, hx, hkind⟩ := hsome
    rw [answerOf?, Option.map_eq_none_iff, List.find?_eq_none] at h
    exact absurd (decide_eq_true hkind) (h x hx)
  | some b =>
    obtain ⟨x, hx, hkind, rfl⟩ := exists_of_answerOf?_eq_some h
    rw [hall x hx hkind]

theorem dispatch_of_listed (hlisted : ∃ x ∈ registrations, x.path = path ∧ m ∈ x.methods)
    (hall : ∀ x ∈ registrations, x.path = path ∧ m ∈ x.methods → x.answer = a) :
    dispatch registrations path m = some a := by
  rw [dispatch, answerOf?_eq_some hlisted hall]

theorem dispatch_of_fallback (hnone : ∀ x ∈ registrations, ¬ (x.path = path ∧ m ∈ x.methods))
    (hfallback : ∃ x ∈ registrations, x.path = path ∧ x.methods = [])
    (hall : ∀ x ∈ registrations, x.path = path ∧ x.methods = [] → x.answer = a) :
    dispatch registrations path m = some a := by
  rw [dispatch, answerOf?_eq_none hnone]
  exact answerOf?_eq_some hfallback hall

/-- Whatever answers a request is registered on its path. -/
theorem exists_of_dispatch (h : dispatch registrations path m = some a) :
    ∃ x ∈ registrations, x.path = path ∧ x.answer = a := by
  unfold dispatch at h
  split at h
  · next b hlisted =>
    obtain ⟨x, hx, hkind, hanswer⟩ := exists_of_answerOf?_eq_some (hlisted.trans h)
    exact ⟨x, hx, hkind.1, hanswer⟩
  · obtain ⟨x, hx, hkind, hanswer⟩ := exists_of_answerOf?_eq_some h
    exact ⟨x, hx, hkind.1, hanswer⟩

end

/-- The route serves the method: it lists it, or it lists none and the method is free on its path
and on the toggled one. -/
def Serves (registrations : List Registration) (r : Route) (m : Method) : Prop :=
  m ∈ r.methods ∨ (r.methods = [] ∧ ∀ x ∈ registrations,
    x.path = r.path ∨ x.path = toggleTrailingSlash r.path → m ∉ x.methods)

variable {d : Descriptor} {e : Endpoint} {m : Method}

theorem own_mem_registrations (he : e ∈ d.endpoints) : e.own d ∈ d.registrations :=
  (mem_registrations_iff d _).mpr ⟨e, he, Or.inl rfl⟩

theorem redirection_mem_registrations (he : e ∈ d.endpoints) (hredirects : e.redirects = true) :
    e.redirection ∈ d.registrations :=
  (mem_registrations_iff d _).mpr ⟨e, he, Or.inr ⟨hredirects, rfl⟩⟩

/-- What meets a redirecting endpoint on its toggled path is a redirect. -/
theorem answer_of_meet_redirection (he : e ∈ d.endpoints) (hredirects : e.redirects = true)
    {x : Registration} (hx : x ∈ d.registrations)
    (hpath : x.path = toggleTrailingSlash e.route.path)
    (hmeet : MethodsMeet e.route.methods x.methods) : x.answer = .redirect := by
  obtain ⟨f, hf, rfl | ⟨-, rfl⟩⟩ := (mem_registrations_iff d x).mp hx
  · exact absurd hmeet (not_meet_redirection hf he hredirects hpath)
  · rfl

/-- What meets an endpoint on its own path is the endpoint. -/
theorem answer_of_meet_own (hd : d.WellFormed) (he : e ∈ d.endpoints) {x : Registration}
    (hx : x ∈ d.registrations) (hpath : x.path = e.route.path)
    (hmeet : MethodsMeet e.route.methods x.methods) : x.answer = e.answer d := by
  obtain ⟨f, hf, rfl | ⟨hredirects, rfl⟩⟩ := (mem_registrations_iff d x).mp hx
  · rw [eq_of_own_meet hd he hf hpath.symm hmeet]
    rfl
  · exact absurd hmeet.symm (not_meet_redirection he hf hredirects hpath.symm)

theorem methodsMeet_of_mem {ms ns : List Method} (hm : m ∈ ms) (hn : m ∈ ns) :
    MethodsMeet ms ns := Or.inr ⟨m, hm, hn⟩

theorem methodsMeet_of_nil {ms ns : List Method} (hm : ms = []) (hn : ns = []) :
    MethodsMeet ms ns := Or.inl ⟨hm, hn⟩

theorem dispatch_toggled (he : e ∈ d.endpoints) (hredirects : e.redirects = true)
    (hserves : Serves d.registrations e.route m) :
    dispatch d.registrations (toggleTrailingSlash e.route.path) m = some .redirect := by
  have hmem := redirection_mem_registrations he hredirects
  rcases hserves with hlisted | ⟨hnil, hfree⟩
  · refine dispatch_of_listed ⟨_, hmem, rfl, hlisted⟩ fun x hx ⟨hpath, hm⟩ => ?_
    exact answer_of_meet_redirection he hredirects hx hpath (methodsMeet_of_mem hlisted hm)
  · refine dispatch_of_fallback (fun x hx ⟨hpath, hm⟩ => hfree x hx (Or.inr hpath) hm)
      ⟨_, hmem, rfl, hnil⟩ fun x hx ⟨hpath, hx'⟩ => ?_
    exact answer_of_meet_redirection he hredirects hx hpath (methodsMeet_of_nil hnil hx')

theorem dispatch_own (hd : d.WellFormed) (he : e ∈ d.endpoints)
    (hserves : Serves d.registrations e.route m) :
    dispatch d.registrations e.route.path m = some (e.answer d) := by
  have hmem := own_mem_registrations he
  rcases hserves with hlisted | ⟨hnil, hfree⟩
  · refine dispatch_of_listed ⟨_, hmem, rfl, hlisted⟩ fun x hx ⟨hpath, hm⟩ => ?_
    exact answer_of_meet_own hd he hx hpath (methodsMeet_of_mem hlisted hm)
  · refine dispatch_of_fallback (fun x hx ⟨hpath, hm⟩ => hfree x hx (Or.inl hpath) hm)
      ⟨_, hmem, rfl, hnil⟩ fun x hx ⟨hpath, hx'⟩ => ?_
    exact answer_of_meet_own hd he hx hpath (methodsMeet_of_nil hnil hx')

/-- The handler of an endpoint answers on no path but that of the endpoint. -/
theorem path_of_dispatch_own (hd : d.WellFormed) (he : e ∈ d.endpoints) {path : String}
    (h : dispatch d.registrations path m = some (e.answer d)) : path = e.route.path := by
  obtain ⟨x, hx, hpath, hanswer⟩ := exists_of_dispatch h
  obtain ⟨f, hf, rfl | ⟨-, rfl⟩⟩ := (mem_registrations_iff d x).mp hx
  · have hname : Naming.methodName f.route.handler = Naming.methodName e.route.handler := by
      have hparts := Answer.handler.inj hanswer
      exact hparts.2
    rw [← hpath, ← eq_of_methodName_eq hd hf he hname]
    rfl
  · exact absurd hanswer (by simp [Endpoint.redirection, Endpoint.answer])

/-- A redirecting endpoint gets its own requests, and its redirect those on the toggled path, which
the emitted function sends to the path toggled once more. The redirect leads back to the endpoint
exactly if its path does not end in two slashes. -/
theorem redirect_leads_home_iff (d : Descriptor) (hd : d.Reachable) :
    ∃ registrations, d.registrations? = some registrations ∧
      Service.fileRecords? (Service.bootstrap d) =
        some (d.endpoints.map (Service.recordOf (.ofProject d.info.name))) ∧
      ∀ e ∈ d.endpoints, e.redirects = true → ∀ m, Serves registrations e.route m →
        let target := toggleTrailingSlash (toggleTrailingSlash e.route.path)
        dispatch registrations (toggleTrailingSlash e.route.path) m = some .redirect ∧
        (∀ query, Service.fileRedirect? (Service.bootstrap d) (toggleTrailingSlash e.route.path)
          query = some (target ++ query.elim "" ("?" ++ ·))) ∧
        dispatch registrations e.route.path m = some (e.answer d) ∧
        (target = e.route.path ↔ ¬ ∃ stem, e.route.path = stem ++ "//") ∧
        (dispatch registrations target m = some (e.answer d) ↔
          ¬ ∃ stem, e.route.path = stem ++ "//") := by
  refine ⟨d.registrations, d.registrations?_eq, Service.fileRecords?_bootstrap d, ?_⟩
  intro e he hredirects m hserves target
  have hown := dispatch_own hd.wellFormed he hserves
  have htarget := toggleTrailingSlash_toggleTrailingSlash_iff e.route.path
  refine ⟨dispatch_toggled he hredirects hserves, Service.fileRedirect?_bootstrap d _, hown,
    htarget, ?_⟩
  rw [← htarget]
  constructor
  · exact path_of_dispatch_own hd.wellFormed he
  · intro hhome
    rw [show target = e.route.path from hhome]
    exact hown

/-- The endpoint of the first route on a crowded path. -/
def shipsEndpoint : Endpoint :=
  { route := { path := "/ships", strictSlash := true, methods := [.get], handler := "Ships" }
    redirects := true }

theorem redirect_of_ships_leads_home :
    crowdedPath.Reachable ∧ shipsEndpoint ∈ crowdedPath.endpoints ∧
      ∃ registrations, crowdedPath.registrations? = some registrations ∧
        dispatch registrations "/ships/" .get = some .redirect ∧
        toggleTrailingSlash "/ships/" = "/ships" ∧
        dispatch registrations "/ships" .get = some (shipsEndpoint.answer crowdedPath) := by
  have hreachable : crowdedPath.Reachable := (Reachable.base _).afterAll _
  have hmem : shipsEndpoint ∈ crowdedPath.endpoints := by decide +kernel
  obtain ⟨registrations, hread, -, hleads⟩ := redirect_leads_home_iff crowdedPath hreachable
  obtain ⟨htoggled, -, hown, htarget, -⟩ :=
    hleads shipsEndpoint hmem rfl .get (Or.inl (List.mem_singleton_self _))
  have hbare : ¬ EndsInSlash "/ships" := by decide +kernel
  have hpath : toggleTrailingSlash "/ships" = "/ships/" :=
    toggleTrailingSlash_of_not_endsInSlash hbare
  refine ⟨hreachable, hmem, registrations, hread, ?_, ?_, hown⟩
  · rw [← hpath]
    exact htoggled
  · rw [← hpath]
    exact htarget.mpr (not_double_of_not_endsInSlash hbare)

/-- The one route redirects from a path whose own toggled path is not that of the route. -/
def doubledSlash : Descriptor :=
  (base { name := "fleet" }).afterAll
    [.addRoute { path := "/ships//", strictSlash := true, methods := [.get], handler := "Ships" }]

theorem redirect_of_doubledSlash_strays :
    doubledSlash.Reachable ∧
      (doubledSlash.endpoints.map fun e => (e.route.path, e.redirects)) = [("/ships//", true)] ∧
      ∃ registrations, doubledSlash.registrations? = some registrations ∧
        dispatch registrations "/ships//" .get ≠ none ∧
        toggleTrailingSlash "/ships//" = "/ships/" ∧
        dispatch registrations "/ships/" .get = some .redirect ∧
        toggleTrailingSlash "/ships/" = "/ships" ∧
        Service.fileRedirect? (Service.bootstrap doubledSlash) "/ships/" none = some "/ships" ∧
        dispatch registrations "/ships" .get = none := by
  refine ⟨(Reachable.base _).afterAll _, by decide +kernel, _, registrations?_eq _, ?_⟩
  decide +kernel

end Scaffold
