import Scaffold.Proofs.Agreement

/-!
The last line of the documentation of a route tells what the bootstrap makes of it: that it is not
routed and which handler answers instead, that the path with the other slash redirects to it, or
that it does not. The line and the endpoints come from the wiring, but each stands in a file of its
own; here the files are compared route by route.
-/

namespace Scaffold

namespace Route

/-- What the wiring has to say of the route, and where that is nothing, what the route serves. -/
def lastNote (r : Route) (w : Wiring) : String := (r.wiringNote? w).getD r.methodsNote

theorem getLast?_documentation (r : Route) (w : Wiring) :
    (r.documentation w).getLast? = some (r.lastNote w) := by
  cases h : r.wiringNote? w <;> simp [documentation, lastNote, h]

theorem shadowNote_inj {h h' : String} : shadowNote h = shadowNote h' ↔ h = h' := by
  simp [shadowNote, codeSpan, String.append_right_inj, String.append_left_inj]

theorem head?_methodsNote (r : Route) : r.methodsNote.toList.head? = some 'S' := by
  unfold methodsNote
  split <;> simp

theorem head?_shadowNote (h : String) : (shadowNote h).toList.head? = some 'N' := by
  simp [shadowNote]

theorem head?_redirectNote : redirectNote.toList.head? = some 'T' := by decide +kernel

theorem head?_ownVariantNote : ownVariantNote.toList.head? = some 'T' := by decide +kernel

theorem ne_of_head?_ne {s t : String} (h : s.toList.head? ≠ t.toList.head?) : s ≠ t := by
  rintro rfl
  exact h rfl

/-- The notes on wirings begin with other letters than what a route serves. -/
theorem methodsNote_ne (r : Route) (h : String) :
    r.methodsNote ≠ shadowNote h ∧ r.methodsNote ≠ redirectNote ∧
      r.methodsNote ≠ ownVariantNote := by
  refine ⟨?_, ?_, ?_⟩ <;> apply ne_of_head?_ne <;> rw [head?_methodsNote]
  · simp [head?_shadowNote]
  · simp [head?_redirectNote]
  · simp [head?_ownVariantNote]

theorem shadowNote_ne (h : String) :
    shadowNote h ≠ redirectNote ∧ shadowNote h ≠ ownVariantNote := by
  refine ⟨?_, ?_⟩ <;> apply ne_of_head?_ne <;> rw [head?_shadowNote]
  · simp [head?_redirectNote]
  · simp [head?_ownVariantNote]

theorem redirectNote_ne_ownVariantNote : redirectNote ≠ ownVariantNote := by decide +kernel

theorem lastNote_eq_shadowNote_iff (r : Route) (w : Wiring) (h : String) :
    r.lastNote w = shadowNote h ↔ w = .shadowed h := by
  cases w with
  | shadowed handler => simp [lastNote, wiringNote?, shadowNote_inj]
  | routed redirects =>
    have hredirect := (shadowNote_ne h).1.symm
    have hown := (shadowNote_ne h).2.symm
    have hmethods := (r.methodsNote_ne h).1
    cases redirects <;> cases hwants : r.wantsRedirect <;>
      simp [lastNote, wiringNote?, hwants, hredirect, hown, hmethods]

theorem lastNote_eq_redirectNote_iff (r : Route) (w : Wiring) :
    r.lastNote w = redirectNote ↔ w = .routed true := by
  cases w with
  | shadowed handler => simp [lastNote, wiringNote?, (shadowNote_ne handler).1]
  | routed redirects =>
    have hown := redirectNote_ne_ownVariantNote.symm
    have hmethods := (r.methodsNote_ne "").2.1
    cases redirects <;> cases hwants : r.wantsRedirect <;>
      simp [lastNote, wiringNote?, hwants, hown, hmethods]

theorem lastNote_eq_ownVariantNote_iff (r : Route) (w : Wiring) :
    r.lastNote w = ownVariantNote ↔ r.wantsRedirect = true ∧ w = .routed false := by
  cases w with
  | shadowed handler => simp [lastNote, wiringNote?, (shadowNote_ne handler).2]
  | routed redirects =>
    have hredirect := redirectNote_ne_ownVariantNote
    have hmethods := (r.methodsNote_ne "").2.2
    cases redirects <;> cases hwants : r.wantsRedirect <;>
      simp [lastNote, wiringNote?, hwants, hredirect, hmethods]

end Route

namespace Service

open Descriptor

/-- What the bootstrap emits for each route in turn: the endpoint that stands for the route, or
nothing, and nothing just for the routes that are shadowed. -/
structure Emits (d : Descriptor) (emitted : List (Option EndpointRecord)) : Prop where
  read : fileRecords? (bootstrap d) = some emitted.reduceOption
  length_eq : emitted.length = d.routes.length
  nothing_iff : ∀ (i : ℕ) (r : Route), d.routes[i]? = some r →
    (emitted[i]? = some none ↔ Shadowed (d.routes.take i) r)
  standsFor : ∀ (i : ℕ) (r : Route) (e : EndpointRecord), d.routes[i]? = some r →
    emitted[i]? = some (some e) → StandsFor (.ofProject d.info.name) r e

/-- The endpoint of a wired route, if it is routed. -/
def recordOf? (n : Names) (p : Route × Wiring) : Option EndpointRecord :=
  (endpointOf? p).map (recordOf n)

def emitted (d : Descriptor) : List (Option EndpointRecord) :=
  d.wirings.map (recordOf? (.ofProject d.info.name))

variable {d : Descriptor} {n : Names} {i : ℕ} {r : Route} {w : Wiring} {e : EndpointRecord}

theorem recordOf?_eq_none_iff : recordOf? n (r, w) = none ↔ ∃ handler, w = .shadowed handler := by
  cases w <;> simp [recordOf?, endpointOf?]

theorem standsFor_of_recordOf? (h : recordOf? n (r, w) = some e) : StandsFor n r e := by
  cases w with
  | shadowed handler => simp [recordOf?, endpointOf?] at h
  | routed redirects =>
    obtain rfl := Option.some.inj h
    exact ⟨rfl, rfl, rfl, rfl⟩

theorem exists_record_iff (strictSlash : Bool) :
    (∃ e, recordOf? n (r, w) = some e ∧ e.strictSlash = strictSlash) ↔ w = .routed strictSlash := by
  cases w <;> simp [recordOf?, endpointOf?, recordOf]

theorem wiringOf_eq_shadowed_iff {shadow : Option String} {handler : String} :
    d.wiringOf r shadow = .shadowed handler ↔ shadow = some handler := by
  cases shadow <;> simp [wiringOf]

theorem getElem?_emitted (hr : d.routes[i]? = some r) :
    (emitted d)[i]? = some (recordOf? (.ofProject d.info.name)
      (r, d.wiringOf r (shadow? (d.routes.take i) r))) := by
  rw [emitted, List.getElem?_map, getElem?_wirings, hr]
  rfl

theorem getElem?_emitted_eq_none_iff (hr : d.routes[i]? = some r) :
    (emitted d)[i]? = some none ↔ Shadowed (d.routes.take i) r := by
  rw [getElem?_emitted hr, Option.some.injEq, recordOf?_eq_none_iff]
  simp only [wiringOf_eq_shadowed_iff]
  rw [← Option.ne_none_iff_exists', Ne, shadow?_eq_none_iff_not_shadowed, not_not]

theorem getElem?_emitted_eq_some_iff (hr : d.routes[i]? = some r) :
    (∃ e, (emitted d)[i]? = some (some e)) ↔ ¬ Shadowed (d.routes.take i) r := by
  rw [← getElem?_emitted_eq_none_iff hr, getElem?_emitted hr]
  simp only [Option.some.injEq]
  exact Option.ne_none_iff_exists'.symm

theorem emits_emitted (d : Descriptor) : Emits d (emitted d) where
  read := by
    have hreduce : (emitted d).reduceOption = (emitted d).filterMap id := rfl
    rw [fileRecords?_bootstrap, hreduce, emitted, endpoints, List.filterMap_map,
      List.map_filterMap]
    rfl
  length_eq := by rw [emitted, List.length_map, length_wirings]
  nothing_iff := fun i r hr => getElem?_emitted_eq_none_iff hr
  standsFor := by
    intro i r e hr he
    rw [getElem?_emitted hr, Option.some.injEq] at he
    exact standsFor_of_recordOf? he

/-- The note tells what was emitted for route `i`. -/
structure Truthful (routes : List Route) (emitted : List (Option EndpointRecord)) (i : ℕ)
    (r : Route) (note : String) : Prop where
  not_routed : (∃ handler, note = Route.shadowNote handler) ↔ emitted[i]? = some none
  answered_by : ∀ handler, note = Route.shadowNote handler →
    ∃ j s e, IsFallback routes r.path j s ∧ s.handler = handler ∧
      emitted[j]? = some (some e) ∧ e.methods = []
  redirects : note = Route.redirectNote ↔
    ∃ e, emitted[i]? = some (some e) ∧ e.strictSlash = true
  own_variant : note = Route.ownVariantNote ↔ r.strictSlash = true ∧ r.path ≠ "/" ∧
    ∃ e, emitted[i]? = some (some e) ∧ e.strictSlash = false

/-- Route `i` is one on the path that serves every method, and an endpoint was emitted for it. -/
def EmitsFallback (routes : List Route) (emitted : List (Option EndpointRecord)) (path : String)
    (i : ℕ) : Prop :=
  ∃ (r : Route) (e : EndpointRecord), routes[i]? = some r ∧ r.path = path ∧ r.methods = [] ∧
    emitted[i]? = some (some e)

theorem exists_record_of_isFallback {path : String} (h : IsFallback d.routes path i r) :
    ∃ e, (emitted d)[i]? = some (some e) ∧ e.methods = [] := by
  have hnot := (isFallback_iff_not_shadowed h.getElem?_eq h.methods_eq).mp
    (h.path_eq ▸ h)
  obtain ⟨e, he⟩ := (getElem?_emitted_eq_some_iff h.getElem?_eq).mpr hnot
  exact ⟨e, he, ((emits_emitted d).standsFor i r e h.getElem?_eq he).methods_eq.trans h.methods_eq⟩

theorem truthful_lastNote (hr : d.routes[i]? = some r) :
    Truthful d.routes (emitted d) i r
      (r.lastNote (d.wiringOf r (shadow? (d.routes.take i) r))) where
  not_routed := by
    rw [getElem?_emitted hr, Option.some.injEq, recordOf?_eq_none_iff]
    simp only [Route.lastNote_eq_shadowNote_iff]
  answered_by := by
    intro handler hnote
    rw [Route.lastNote_eq_shadowNote_iff, wiringOf_eq_shadowed_iff] at hnote
    obtain ⟨j, s, hj, hhandler⟩ := isFallback_of_shadow? hnote
    obtain ⟨e, he, hmethods⟩ := exists_record_of_isFallback hj
    exact ⟨j, s, e, hj, hhandler, he, hmethods⟩
  redirects := by
    simp only [getElem?_emitted hr, Option.some.injEq]
    rw [Route.lastNote_eq_redirectNote_iff, exists_record_iff]
  own_variant := by
    simp only [getElem?_emitted hr, Option.some.injEq]
    rw [Route.lastNote_eq_ownVariantNote_iff, exists_record_iff, Route.wantsRedirect,
      Bool.and_eq_true, bne_iff_ne, and_assoc]

theorem getElem?_handlerMethods (hr : d.routes[i]? = some r) :
    (handlerMethods d)[i]? = some (routeSignature declaredHandlerTy r
      (d.wiringOf r (shadow? (d.routes.take i) r))) := by
  rw [handlerMethods, List.getElem?_map, getElem?_wirings, hr]
  rfl

theorem existsUnique_emitted {path : String} (hs : r ∈ d.routes) (hpath : r.path = path)
    (hall : r.methods = []) :
    ∃! i, EmitsFallback d.routes (emitted d) path i := by
  obtain ⟨i, s, hi⟩ := exists_isFallback hs hpath hall
  obtain ⟨e, he, -⟩ := exists_record_of_isFallback hi
  refine ⟨i, ⟨s, e, hi.getElem?_eq, hi.path_eq, hi.methods_eq, he⟩, ?_⟩
  rintro j ⟨t, e', hj, rfl, hall', he'⟩
  have hnot := (getElem?_emitted_eq_some_iff hj).mp ⟨e', he'⟩
  exact ((isFallback_iff_not_shadowed hj hall').mpr hnot).unique hi

/-- The last line of the documentation of a route, in the contract as in the stub, tells what the
bootstrap emits for the route; of the routes on a path that serve every method just one is
emitted. -/
theorem notes_tell_truth (d : Descriptor) :
    ∃ handlers stubs emitted,
      ((Names.ofProject d.info.name).handler, handlers) ∈ traits (contract d) ∧
      (serverType, contractItem (Names.ofProject d.info.name).handler, stubs) ∈
        implementations (stub d) ∧
      Emits d emitted ∧
      (∀ i r, d.routes[i]? = some r → ∃ s t note,
        handlers[i]? = some s ∧ s.name = Naming.methodName r.handler ∧
          s.doc.getLast? = some note ∧
        stubs[i]? = some t ∧ t.name = Naming.methodName r.handler ∧
          t.doc.getLast? = some note ∧
        Truthful d.routes emitted i r note) ∧
      ∀ path, (∃ r ∈ d.routes, r.path = path ∧ r.methods = []) →
        ∃! i, EmitsFallback d.routes emitted path i := by
  refine ⟨handlerMethods d, (handlerMethods d).map signatureAbroad, emitted d, ?_, ?_,
    emits_emitted d, ?_, ?_⟩
  · simp [traits_contract]
  · simp [implementations_stub]
  · intro i r hr
    let w := d.wiringOf r (shadow? (d.routes.take i) r)
    have hmethod : (handlerMethods d)[i]? = some (routeSignature declaredHandlerTy r w) :=
      getElem?_handlerMethods hr
    have hstub : ((handlerMethods d).map signatureAbroad)[i]? =
        some (routeSignature importedHandlerTy.value r w) := by
      rw [List.getElem?_map, hmethod]
      rfl
    have hdoc : (r.documentation w).getLast? = some (r.lastNote w) := r.getLast?_documentation w
    exact ⟨routeSignature declaredHandlerTy r w, routeSignature importedHandlerTy.value r w,
      r.lastNote w, hmethod, rfl, hdoc, hstub, rfl, hdoc, truthful_lastNote hr⟩
  · rintro path ⟨r, hr, hpath, hall⟩
    exact existsUnique_emitted hr hpath hall

/-- The note of a shadowed route names the first of the routes on its path. -/
theorem guardedFleet_second_note :
    ∃ handlers s,
      ((Names.ofProject "fleet").handler, handlers) ∈ traits (contract guardedFleet) ∧
      handlers[1]? = some s ∧ s.name = "second" ∧
      s.doc.getLast? = some (Route.shadowNote "First") := by
  obtain ⟨handlers, stubs, emitted, hhandlers, -, hemits, hnotes, -⟩ :=
    notes_tell_truth guardedFleet
  have hzero : guardedFleet.routes[0]? = some { path := "/ships", handler := "First" } := by
    decide +kernel
  have hfirst := (isFallback_iff_not_shadowed hzero rfl).mpr (by decide +kernel)
  have hsecond : guardedFleet.routes[1]? = some { path := "/ships", handler := "Second" } := by
    decide +kernel
  obtain ⟨s, -, note, hs, hname, hnote, -, -, -, htruth⟩ := hnotes 1 _ hsecond
  have hnothing := (hemits.nothing_iff 1 _ hsecond).mpr (by decide +kernel)
  obtain ⟨handler, rfl⟩ := htruth.not_routed.mpr hnothing
  obtain ⟨j, t, -, hj, rfl, -, -⟩ := htruth.answered_by handler rfl
  obtain rfl := hj.unique hfirst
  obtain rfl := Option.some.inj (hj.getElem?_eq.symm.trans hfirst.getElem?_eq)
  exact ⟨handlers, s, hhandlers, hs, hname.trans (by decide +kernel), hnote⟩

end Service

end Scaffold
