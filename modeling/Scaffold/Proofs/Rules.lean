import Mathlib.Data.List.Nodup
import Scaffold.Proofs.Replay
import Scaffold.Proofs.Words

/-!
The rules of a descriptor: what holds of its lists however they were grown or read. Every call keeps
them, so every run of calls does, and a document that is read is replayed by such a run.
-/

namespace Scaffold

namespace Route

/-- The route obeys all rules that speak of it alone. -/
structure Sound (r : Route) : Prop where
  path_rooted : ∃ rest, r.path = "/" ++ rest
  methods_nodup : r.methods.Nodup
  handler_name : Naming.IsHandlerName r.handler

theorem head?_eq_slash_iff (path : String) :
    path.toList.head? = some '/' ↔ ∃ rest, path = "/" ++ rest := by
  constructor
  · intro h
    obtain ⟨cs, hcs⟩ : ∃ cs, path.toList = '/' :: cs := by
      cases hp : path.toList with
      | nil => simp [hp] at h
      | cons c cs =>
        rw [hp, List.head?_cons, Option.some.injEq] at h
        exact ⟨cs, by rw [h]⟩
    exact ⟨String.ofList cs, by simp [← String.toList_inj, hcs]⟩
  · rintro ⟨rest, rfl⟩
    rw [String.toList_append]
    rfl

theorem handlerDefect?_eq_none_iff (name : String) :
    handlerDefect? name = none ↔ Naming.IsHandlerName name := by
  simp [handlerDefect?, Naming.isWord_iff]

/-- A route by itself is refused exactly for breaking a rule. -/
theorem defect?_eq_none_iff (r : Route) : r.defect? = none ↔ r.Sound := by
  have hrules : r.Sound ↔ (∃ rest, r.path = "/" ++ rest) ∧ r.methods.Nodup ∧
      Naming.IsHandlerName r.handler :=
    ⟨fun h => ⟨h.path_rooted, h.methods_nodup, h.handler_name⟩, fun h => ⟨h.1, h.2.1, h.2.2⟩⟩
  rw [hrules, ← head?_eq_slash_iff, ← firstRepeat?_eq_none_iff, ← handlerDefect?_eq_none_iff]
  unfold defect?
  by_cases hpath : r.path.toList.head? = some '/'
  · rw [if_neg (not_not.mpr hpath)]
    cases firstRepeat? r.methods <;> simp [hpath]
  · simp [hpath]

/-- The routes can stand beside each other: they generate two methods, and on one path they list no
method in common. -/
def Compatible (r s : Route) : Prop :=
  Naming.methodName r.handler ≠ Naming.methodName s.handler ∧
    (r.path = s.path → r.methods.Disjoint s.methods)

instance : Std.Symm Compatible :=
  ⟨fun _ _ h => ⟨h.1.symm, fun hpath _ hm hm' => h.2 hpath.symm hm' hm⟩⟩

theorem conflict?_eq_none_iff (r stored : Route) :
    r.conflict? stored = none ↔ stored.Compatible r := by
  unfold conflict? Compatible
  by_cases hname : Naming.methodName stored.handler = Naming.methodName r.handler
  · simp [hname]
  · by_cases hpath : stored.path = r.path
    · have hdisjoint : (r.methods.find? stored.accepts = none) ↔
          stored.methods.Disjoint r.methods := by
        simp only [List.find?_eq_none, accepts, List.contains_iff_mem]
        exact ⟨fun h m hm hm' => h m hm' hm, fun h m hm hm' => h hm' hm⟩
      simp [hname, hpath, hdisjoint]
    · simp [hname, hpath]

end Route

namespace Middleware

theorem defect?_eq_none_iff (m : Middleware) :
    m.defect? = none ↔ Naming.IsHandlerName m.handler :=
  Route.handlerDefect?_eq_none_iff m.handler

theorem conflict?_eq_none_iff (m stored : Middleware) :
    m.conflict? stored = none ↔
      Naming.methodName stored.handler ≠ Naming.methodName m.handler := by
  simp [conflict?]

end Middleware

namespace Descriptor

/-- All rules: each entry obeys its own, and the entries of each list can stand beside each
other. -/
structure WellFormed (d : Descriptor) : Prop where
  routes_sound : ∀ r ∈ d.routes, r.Sound
  routes_compatible : d.routes.Pairwise Route.Compatible
  middleware_names : ∀ m ∈ d.middlewares, Naming.IsHandlerName m.handler
  middlewares_compatible : d.middlewares.Pairwise fun m n =>
    Naming.methodName m.handler ≠ Naming.methodName n.handler

theorem wellFormed_base (info : Info) : (base info).WellFormed where
  routes_sound := by simp [base]
  routes_compatible := List.Pairwise.nil
  middleware_names := by simp [base]
  middlewares_compatible := List.Pairwise.nil

theorem WellFormed.addRoute {d d' : Descriptor} {r : Route} (h : d.WellFormed)
    (hadd : d.addRoute r = .ok d') : d'.WellFormed := by
  obtain ⟨⟨hdefect, hconflict⟩, rfl⟩ := (addRoute_eq_ok_iff d d' r).mp hadd
  have hsound : r.Sound := (Route.defect?_eq_none_iff r).mp hdefect
  have hbeside : ∀ s ∈ d.routes, s.Compatible r := fun s hs =>
    (Route.conflict?_eq_none_iff r s).mp (hconflict s hs)
  refine { h with routes_sound := ?_, routes_compatible := ?_ }
  · intro s hs
    rcases List.mem_append.mp hs with hs | hs
    · exact h.routes_sound s hs
    · rwa [List.mem_singleton.mp hs]
  · refine List.pairwise_append.mpr ⟨h.routes_compatible, List.pairwise_singleton _ r, ?_⟩
    intro s hs t ht
    rw [List.mem_singleton.mp ht]
    exact hbeside s hs

theorem WellFormed.addMiddleware {d d' : Descriptor} {m : Middleware} (h : d.WellFormed)
    (hadd : d.addMiddleware m = .ok d') : d'.WellFormed := by
  obtain ⟨⟨hdefect, hconflict⟩, rfl⟩ := (addMiddleware_eq_ok_iff d d' m).mp hadd
  have hname := (Middleware.defect?_eq_none_iff m).mp hdefect
  refine { h with middleware_names := ?_, middlewares_compatible := ?_ }
  · intro n hn
    rcases List.mem_append.mp hn with hn | hn
    · exact h.middleware_names n hn
    · rwa [List.mem_singleton.mp hn]
  · refine List.pairwise_append.mpr ⟨h.middlewares_compatible, List.pairwise_singleton _ m, ?_⟩
    intro n hn k hk
    rw [List.mem_singleton.mp hk]
    exact (Middleware.conflict?_eq_none_iff m n).mp (hconflict n hn)

/-- A call keeps the rules, whatever it asks for and whether or not it is refused. -/
theorem WellFormed.after {d : Descriptor} (h : d.WellFormed) (c : Call) :
    (d.after c).WellFormed := by
  cases hgrow : d.grow c with
  | ok d' =>
    rw [after_of_grow hgrow]
    cases c with
    | addRoute r => exact h.addRoute hgrow
    | addMiddleware m => exact h.addMiddleware hgrow
    | setInfo i =>
      obtain rfl := Except.ok.inj hgrow
      exact { h with }
  | error e =>
    rw [after_of_answer_error d c e ((answer_eq_error_iff d c e).mpr hgrow)]
    exact h

theorem WellFormed.afterAll {d : Descriptor} (h : d.WellFormed) (calls : List Call) :
    (d.afterAll calls).WellFormed := by
  induction calls generalizing d with
  | nil => exact h
  | cons c cs ih => exact ih (h.after c)

/-- The descriptors that can come to be: empty, read from a document, or behind a call on one. -/
inductive Reachable : Descriptor → Prop where
  | base (info : Info) : Reachable (base info)
  | read {f : Format} {s : String} {d : Descriptor} : parse f s = .ok d → Reachable d
  | call {d : Descriptor} (c : Call) : Reachable d → Reachable (d.after c)

/-- What is read can also be made by calls. -/
theorem Reachable.exists_calls {d : Descriptor} (h : d.Reachable) :
    ∃ info calls, d = (Descriptor.base info).afterAll calls := by
  induction h with
  | base info => exact ⟨info, [], rfl⟩
  | read hparse =>
    obtain ⟨draft, -, hbuild⟩ := (parse_eq_ok_iff _ _ _).mp hparse
    exact ⟨draft.info, draft.calls, ((Draft.build_eq_ok_iff draft _).mp hbuild).2⟩
  | call c _ ih =>
    obtain ⟨info, calls, rfl⟩ := ih
    exact ⟨info, calls ++ [c], by simp [Descriptor.afterAll]⟩

theorem Reachable.wellFormed {d : Descriptor} (h : d.Reachable) : d.WellFormed := by
  obtain ⟨info, calls, rfl⟩ := h.exists_calls
  exact (wellFormed_base info).afterAll calls

theorem Reachable.afterAll {d : Descriptor} (h : d.Reachable) (calls : List Call) :
    (d.afterAll calls).Reachable := by
  induction calls generalizing d with
  | nil => exact h
  | cons c cs ih => exact ih (.call c h)

/-- Whatever a descriptor went through, its lists obey the rules. They are what the accepted calls
made them, a refused call changed nothing, and a decoded document is read in full or refused for its
first entry that breaks a rule. -/
theorem rules_hold_of_every_descriptor :
    (∀ d : Descriptor, d.Reachable → d.WellFormed) ∧
    (∀ (d : Descriptor) (calls : List Call),
      (d.afterAll calls).routes = d.routes ++ (d.accepted calls).filterMap Call.route? ∧
      (d.afterAll calls).middlewares =
        d.middlewares ++ (d.accepted calls).filterMap Call.middleware?) ∧
    (∀ (d : Descriptor) (c : Call) (e : Rejection), d.answer c = .error e → d.after c = d) ∧
    (∀ (f : Format) (s : String) (draft : Draft), Draft.parse? f s = some draft →
      (∀ d, parse f s = .ok d → d = draft.entries) ∧
      (∀ e, parse f s = .error e ↔ ∃ i r, e = .rejected r ∧ draft.StopsAt i r)) := by
  refine ⟨fun d h => h.wellFormed, fun d calls => ?_, after_of_answer_error, ?_⟩
  · exact ⟨routes_afterAll d calls, middlewares_afterAll d calls⟩
  · intro f s draft hdecoded
    constructor
    · intro d hparse
      obtain ⟨draft', hdecoded', hbuild⟩ := (parse_eq_ok_iff f s d).mp hparse
      obtain rfl : draft = draft' := Option.some.inj (hdecoded.symm.trans hdecoded')
      obtain ⟨haccepted, rfl⟩ := (Draft.build_eq_ok_iff draft d).mp hbuild
      exact Draft.replayed_eq_entries draft haccepted
    · intro e
      rw [parse_eq_error_iff hdecoded]
      constructor
      · rintro ⟨r, rfl, hbuild⟩
        obtain ⟨i, hi⟩ := (Draft.build_eq_error_iff draft r).mp hbuild
        exact ⟨i, r, rfl, hi⟩
      · rintro ⟨i, r, rfl, hi⟩
        exact ⟨r, rfl, (Draft.build_eq_error_iff draft r).mpr ⟨i, hi⟩⟩

/-- A document of two routes whose handler names generate one method. -/
def twinDocument : String :=
  "Routes:\n- Path: /a\n  HandlerName: GetShip\n- Path: /b\n  HandlerName: get_ship\n"

def twins : Draft :=
  { info := {}
    routes := [{ path := "/a", handler := "GetShip" }, { path := "/b", handler := "get_ship" }]
    middlewares := [] }

theorem stopsAt_twins : twins.StopsAt 1 (.duplicateHandler "GetShip") := by
  refine ⟨⟨.addRoute { path := "/b", handler := "get_ship" }, rfl, by decide +kernel⟩, ?_⟩
  rintro j hj e ⟨c, hc, hanswer⟩
  obtain rfl : j = 0 := by omega
  obtain rfl := Option.some.inj hc
  have hok : (base {}).answer (.addRoute { path := "/a", handler := "GetShip" }) = .ok () := by
    decide +kernel
  exact absurd (hok.symm.trans hanswer) (by simp)

/-- Of the twins the first is kept and the second refused, by calls as by reading. -/
theorem rules_hold_of_twins :
    twins.replayed.WellFormed ∧ twins.replayed.routes = twins.routes.take 1 ∧
    twins.replayed.after (.addRoute { path := "/b", handler := "get_ship" }) = twins.replayed ∧
    parse .yaml twinDocument = .error (.rejected (.duplicateHandler "GetShip")) := by
  obtain ⟨hwell, hlists, hframe, hread⟩ := rules_hold_of_every_descriptor
  have hdecoded : Draft.parse? .yaml twinDocument = some twins := by decide +kernel
  refine ⟨hwell _ ((Reachable.base {}).afterAll twins.calls), ?_, ?_, ?_⟩
  · apply ((hlists (base {}) twins.calls).1).trans
    decide +kernel
  · exact hframe _ _ (.duplicateHandler "GetShip") (by decide +kernel)
  · exact ((hread .yaml twinDocument twins hdecoded).2 _).mpr ⟨1, _, rfl, stopsAt_twins⟩

end Descriptor

end Scaffold
