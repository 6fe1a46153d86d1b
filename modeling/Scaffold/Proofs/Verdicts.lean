import Scaffold.Proofs.CallOrder

/-!
Which fault a call reports. Of the faults of a route by itself the path comes first, then a method
that it repeats, then its handler. A sound route is refused for the earliest stored route in
conflict with it, and a conflict of handlers hides one of methods on the same route. The stored
routes obey the rules, so a route that is blamed for a method is the only one to blame for it.
-/

namespace Scaffold

section

variable {α : Type}

/-- Of the elements of the list that have the property, the one in front. -/
def IsFirst (p : α → Prop) (xs : List α) (x : α) : Prop :=
  ∃ before behind, xs = before ++ x :: behind ∧ p x ∧ ∀ y ∈ before, ¬ p y

theorem IsFirst.mem {p : α → Prop} {xs : List α} {x : α} (h : IsFirst p xs x) : x ∈ xs := by
  obtain ⟨before, behind, rfl, -⟩ := h
  simp

theorem IsFirst.prop {p : α → Prop} {xs : List α} {x : α} (h : IsFirst p xs x) : p x := by
  obtain ⟨-, -, -, hx, -⟩ := h
  exact hx

/-- The first element of the list that occurs earlier in it. -/
def IsFirstRepeat (xs : List α) (x : α) : Prop :=
  ∃ before behind, xs = before ++ x :: behind ∧ x ∈ before ∧ before.Nodup

/-- A search that skips just the elements without the property stops at the first that has it. -/
theorem findSome?_eq_some_iff_isFirst {β : Type} {f : α → Option β} {p : α → Prop}
    (h : ∀ x, f x = none ↔ ¬ p x) (xs : List α) (b : β) :
    xs.findSome? f = some b ↔ ∃ x, IsFirst p xs x ∧ f x = some b := by
  simp only [List.findSome?_eq_some_iff, h, IsFirst]
  constructor
  · rintro ⟨before, x, behind, heq, hx, hbefore⟩
    have hp : p x := by
      by_contra hnot
      rw [(h x).mpr hnot] at hx
      cases hx
    exact ⟨x, ⟨before, behind, heq, hp, hbefore⟩, hx⟩
  · rintro ⟨x, ⟨before, behind, heq, -, hbefore⟩, hx⟩
    exact ⟨before, x, behind, heq, hx, hbefore⟩

variable [DecidableEq α]

theorem firstRepeatAfter?_eq_some_iff {seen xs : List α} {x : α} :
    firstRepeatAfter? seen xs = some x ↔
      ∃ before behind, xs = before ++ x :: behind ∧ (x ∈ before ∨ x ∈ seen) ∧ before.Nodup ∧
        ∀ y ∈ before, y ∉ seen := by
  induction xs generalizing seen with
  | nil => simp [firstRepeatAfter?]
  | cons y ys ih =>
    by_cases hy : y ∈ seen
    · rw [firstRepeatAfter?, if_pos hy]
      constructor
      · intro h
        obtain rfl := Option.some.inj h
        exact ⟨[], ys, rfl, .inr hy, List.nodup_nil, List.forall_mem_nil _⟩
      · rintro ⟨before, behind, heq, -, -, hfresh⟩
        cases before with
        | nil => rw [(List.cons.inj heq).1]
        | cons z zs =>
          obtain rfl := (List.cons.inj heq).1
          exact absurd hy (hfresh y List.mem_cons_self)
    · rw [firstRepeatAfter?, if_neg hy, ih]
      constructor
      · rintro ⟨before, behind, rfl, hx, hnodup, hfresh⟩
        simp only [List.mem_cons, not_or] at hx hfresh
        refine ⟨y :: before, behind, rfl, ?_, ?_, ?_⟩
        · rw [List.mem_cons]
          tauto
        · exact List.nodup_cons.mpr ⟨fun hmem => (hfresh y hmem).1 rfl, hnodup⟩
        · exact List.forall_mem_cons.mpr ⟨hy, fun z hz => (hfresh z hz).2⟩
      · rintro ⟨before, behind, heq, hx, hnodup, hfresh⟩
        cases before with
        | nil =>
          obtain rfl := (List.cons.inj heq).1
          exact absurd (hx.resolve_left List.not_mem_nil) hy
        | cons z zs =>
          obtain ⟨rfl, rfl⟩ := List.cons.inj heq
          obtain ⟨hhead, hnodup⟩ := List.nodup_cons.mp hnodup
          rw [List.mem_cons] at hx
          refine ⟨zs, behind, rfl, ?_, hnodup, fun z hz => ?_⟩
          · rw [List.mem_cons]
            tauto
          · rw [List.mem_cons, not_or]
            exact ⟨fun heq => hhead (heq ▸ hz), hfresh z (List.mem_cons_of_mem _ hz)⟩

theorem firstRepeat?_eq_some_iff {xs : List α} {x : α} :
    firstRepeat? xs = some x ↔ IsFirstRepeat xs x := by
  simp [firstRepeat?, firstRepeatAfter?_eq_some_iff, IsFirstRepeat]

end

namespace Route

/-- What there is to report of a route by itself. Each fault hides those behind it. -/
inductive Fault (r : Route) : Rejection → Prop where
  | path (unrooted : ¬ ∃ rest, r.path = "/" ++ rest) : Fault r (.invalidPath r.path)
  | method {m : Method} (rooted : ∃ rest, r.path = "/" ++ rest)
      (first : IsFirstRepeat r.methods m) : Fault r (.repeatedMethod r.path m)
  | handler (rooted : ∃ rest, r.path = "/" ++ rest) (nodup : r.methods.Nodup)
      (name : ¬ Naming.IsHandlerName r.handler) : Fault r (.invalidHandlerName r.handler)

theorem handlerDefect?_eq_some_iff (name : String) (x : Rejection) :
    handlerDefect? name = some x ↔ ¬ Naming.IsHandlerName name ∧ x = .invalidHandlerName name := by
  rw [← Naming.isWord_iff]
  unfold handlerDefect?
  cases Naming.isWord name.toList <;> simp [eq_comm]

theorem defect?_eq_some_iff (r : Route) (x : Rejection) : r.defect? = some x ↔ r.Fault x := by
  have hrooted := head?_eq_slash_iff r.path
  by_cases hpath : ∃ rest, r.path = "/" ++ rest
  · rw [defect?, if_neg (not_not.mpr (hrooted.mpr hpath))]
    cases hrepeat : firstRepeat? r.methods with
    | some m =>
      have hfirst := firstRepeat?_eq_some_iff.mp hrepeat
      constructor
      · intro h
        rw [← Option.some.inj h]
        exact .method hpath hfirst
      · intro h
        cases h with
        | path unrooted => exact absurd hpath unrooted
        | method _ first =>
          rw [firstRepeat?_eq_some_iff.mpr first] at hrepeat
          rw [Option.some.inj hrepeat]
        | handler _ nodup _ => simp [(firstRepeat?_eq_none_iff _).mpr nodup] at hrepeat
    | none =>
      have hnodup := (firstRepeat?_eq_none_iff _).mp hrepeat
      change handlerDefect? r.handler = some x ↔ _
      rw [handlerDefect?_eq_some_iff]
      constructor
      · rintro ⟨hname, rfl⟩
        exact .handler hpath hnodup hname
      · intro h
        cases h with
        | path unrooted => exact absurd hpath unrooted
        | method _ first => simp [firstRepeat?_eq_some_iff.mpr first] at hrepeat
        | handler _ _ name => exact ⟨name, rfl⟩
  · rw [defect?, if_pos (mt hrooted.mp hpath), Option.some.injEq]
    constructor
    · rintro rfl
      exact .path hpath
    · intro h
      cases h with
      | path _ => rfl
      | method rooted _ => exact absurd rooted hpath
      | handler rooted _ _ => exact absurd rooted hpath

/-- What there is to report of a route in conflict with a stored one. -/
inductive Quarrel (r stored : Route) : Rejection → Prop where
  | handler (same : Naming.methodName stored.handler = Naming.methodName r.handler) :
      Quarrel r stored (.duplicateHandler stored.handler)
  | method {m : Method}
      (other : Naming.methodName stored.handler ≠ Naming.methodName r.handler)
      (path : stored.path = r.path) (first : IsFirst (· ∈ stored.methods) r.methods m) :
      Quarrel r stored (.duplicateRouteMethod r.path m)

theorem find?_accepts_eq_some_iff (r stored : Route) (m : Method) :
    r.methods.find? stored.accepts = some m ↔ IsFirst (· ∈ stored.methods) r.methods m := by
  rw [List.find?_eq_some_iff_append]
  simp only [accepts, List.contains_iff_mem, Bool.not_eq_true', IsFirst]
  constructor
  · rintro ⟨hm, before, behind, heq, hbefore⟩
    exact ⟨before, behind, heq, hm, fun k hk => by simpa using hbefore k hk⟩
  · rintro ⟨before, behind, heq, hm, hbefore⟩
    exact ⟨hm, before, behind, heq, fun k hk => by simpa using hbefore k hk⟩

theorem conflict?_eq_some_iff (r stored : Route) (x : Rejection) :
    r.conflict? stored = some x ↔ r.Quarrel stored x := by
  by_cases hname : Naming.methodName stored.handler = Naming.methodName r.handler
  · rw [conflict?, if_pos hname, Option.some.injEq]
    constructor
    · rintro rfl
      exact .handler hname
    · intro h
      cases h with
      | handler _ => rfl
      | method other _ _ => exact absurd hname other
  · rw [conflict?, if_neg hname]
    by_cases hpath : stored.path = r.path
    · simp only [if_pos hpath, Option.map_eq_some_iff, find?_accepts_eq_some_iff]
      constructor
      · rintro ⟨m, hm, rfl⟩
        rw [hpath]
        exact .method hname hpath hm
      · intro h
        cases h with
        | handler same => exact absurd same hname
        | method _ _ first => exact ⟨_, first, by rw [hpath]⟩
    · rw [if_neg hpath]
      constructor
      · nofun
      · intro h
        cases h with
        | handler same => exact absurd same hname
        | method _ path _ => exact absurd path hpath

/-- Without a common method name, only routes on one path are in conflict. -/
theorem path_eq_of_not_compatible {r stored : Route} (h : ¬ stored.Compatible r)
    (hname : Naming.methodName stored.handler ≠ Naming.methodName r.handler) :
    stored.path = r.path := by
  by_contra hpath
  exact h ⟨hname, fun heq => absurd heq hpath⟩

end Route

namespace Descriptor

/-- Elements of which no two agree in what is looked for are found once. -/
theorem filter_eq_singleton {α : Type} {beside : α → α → Prop} {xs : List α} {p : α → Prop}
    [DecidablePred p] (hpairs : xs.Pairwise beside)
    (hapart : ∀ y z, beside y z → p y → ¬ p z) {x : α} (hx : x ∈ xs) (hp : p x) :
    xs.filter (fun y => decide (p y)) = [x] := by
  obtain ⟨before, behind, rfl⟩ := List.append_of_mem hx
  rw [List.pairwise_append, List.pairwise_cons] at hpairs
  obtain ⟨-, ⟨hbehind, -⟩, hbefore⟩ := hpairs
  have hnone : before.filter (fun y => decide (p y)) = [] := by
    rw [List.filter_eq_nil_iff]
    intro y hy hpy
    exact hapart y x (hbefore y hy x List.mem_cons_self) (of_decide_eq_true hpy) hp
  have hnone' : behind.filter (fun y => decide (p y)) = [] := by
    rw [List.filter_eq_nil_iff]
    intro y hy hpy
    exact hapart x y (hbehind y hy) hp (of_decide_eq_true hpy)
  rw [List.filter_append, List.filter_cons, if_pos (decide_eq_true hp), hnone, hnone',
    List.nil_append]

/-- What a call for a route is answered. -/
inductive RouteVerdict (d : Descriptor) (r : Route) : Except Rejection Unit → Prop where
  | faulty {x : Rejection} (fault : r.Fault x) : RouteVerdict d r (.error x)
  | sameHandler {e : Route} (sound : r.Sound)
      (first : IsFirst (fun s => ¬ s.Compatible r) d.routes e)
      (same : Naming.methodName e.handler = Naming.methodName r.handler) :
      RouteVerdict d r (.error (.duplicateHandler e.handler))
  | sharedMethod {e : Route} {m : Method} (sound : r.Sound)
      (first : IsFirst (fun s => ¬ s.Compatible r) d.routes e)
      (other : Naming.methodName e.handler ≠ Naming.methodName r.handler)
      (method : IsFirst (· ∈ e.methods) r.methods m)
      (alone : d.routes.filter (fun s => s.path = r.path ∧ m ∈ s.methods) = [e]) :
      RouteVerdict d r (.error (.duplicateRouteMethod r.path m))
  | accepted (sound : r.Sound) (fits : ∀ s ∈ d.routes, s.Compatible r) :
      RouteVerdict d r (.ok ())

/-- What a call for a middleware is answered. -/
inductive MiddlewareVerdict (d : Descriptor) (m : Middleware) : Except Rejection Unit → Prop where
  | faulty (name : ¬ Naming.IsHandlerName m.handler) :
      MiddlewareVerdict d m (.error (.invalidHandlerName m.handler))
  | sameHandler {e : Middleware} (name : Naming.IsHandlerName m.handler)
      (alone : d.middlewares.filter
        (fun n => Naming.methodName n.handler = Naming.methodName m.handler) = [e]) :
      MiddlewareVerdict d m (.error (.duplicateHandler e.handler))
  | accepted (name : Naming.IsHandlerName m.handler)
      (fits : ∀ n ∈ d.middlewares,
        Naming.methodName n.handler ≠ Naming.methodName m.handler) :
      MiddlewareVerdict d m (.ok ())

/-- Of the routes on a path, at most one lists a method. -/
theorem WellFormed.filter_lists_eq {d : Descriptor} (h : d.WellFormed) {e : Route}
    (he : e ∈ d.routes) {m : Method} (hm : m ∈ e.methods) :
    d.routes.filter (fun s => s.path = e.path ∧ m ∈ s.methods) = [e] := by
  refine filter_eq_singleton h.routes_compatible (fun s t hst hs ht => ?_) he ⟨rfl, hm⟩
  exact hst.2 (hs.1.trans ht.1.symm) hs.2 ht.2

/-- Of the middlewares, at most one generates a method. -/
theorem WellFormed.filter_generates_eq {d : Descriptor} (h : d.WellFormed) {e : Middleware}
    (he : e ∈ d.middlewares) {name : String} (hname : Naming.methodName e.handler = name) :
    d.middlewares.filter (fun n => Naming.methodName n.handler = name) = [e] :=
  filter_eq_singleton h.middlewares_compatible (fun _ _ hst hs ht => hst (hs.trans ht.symm)) he
    hname

theorem elim_orElse_eq_error_iff {ε : Type} (defect conflict : Option ε) (x : ε) :
    (defect <|> conflict).elim (.ok ()) .error = (.error x : Except ε Unit) ↔
      defect = some x ∨ defect = none ∧ conflict = some x := by
  cases defect <;> cases conflict <;> simp

theorem answer_addRoute_eq_error_iff (d : Descriptor) (r : Route) (x : Rejection) :
    d.answer (.addRoute r) = .error x ↔
      r.Fault x ∨ r.Sound ∧
        ∃ e, IsFirst (fun s => ¬ s.Compatible r) d.routes e ∧ r.Quarrel e x := by
  have hconflict (s : Route) : r.conflict? s = none ↔ ¬ ¬ s.Compatible r := by
    rw [Route.conflict?_eq_none_iff, not_not]
  rw [answer_addRoute, elim_orElse_eq_error_iff, Route.defect?_eq_some_iff,
    Route.defect?_eq_none_iff, findSome?_eq_some_iff_isFirst hconflict]
  simp only [Route.conflict?_eq_some_iff]

theorem answer_addMiddleware_eq_error_iff (d : Descriptor) (m : Middleware) (x : Rejection) :
    d.answer (.addMiddleware m) = .error x ↔
      (¬ Naming.IsHandlerName m.handler ∧ x = .invalidHandlerName m.handler) ∨
        Naming.IsHandlerName m.handler ∧ ∃ e,
          IsFirst (fun n => Naming.methodName n.handler = Naming.methodName m.handler)
            d.middlewares e ∧ x = .duplicateHandler e.handler := by
  have hdefect : m.defect? = some x ↔
      ¬ Naming.IsHandlerName m.handler ∧ x = .invalidHandlerName m.handler :=
    Route.handlerDefect?_eq_some_iff m.handler x
  rw [answer_addMiddleware, elim_orElse_eq_error_iff, hdefect, Middleware.defect?_eq_none_iff,
    findSome?_eq_some_iff_isFirst (Middleware.conflict?_eq_none_iff m)]
  refine or_congr_right (and_congr_right fun _ => exists_congr fun e => ?_)
  refine and_congr_right fun hfirst => ?_
  rw [Middleware.conflict?, if_pos hfirst.prop, Option.some.injEq, eq_comm]

theorem answer_addRoute_iff {d : Descriptor} (h : d.WellFormed) (r : Route)
    (v : Except Rejection Unit) : d.answer (.addRoute r) = v ↔ d.RouteVerdict r v := by
  cases v with
  | ok u =>
    rw [answer_addRoute_eq_ok_iff]
    constructor
    · rintro ⟨hsound, hfits⟩
      exact .accepted hsound hfits
    · intro hverdict
      cases hverdict with
      | accepted sound fits => exact ⟨sound, fits⟩
  | error x =>
    rw [answer_addRoute_eq_error_iff]
    constructor
    · rintro (hfault | ⟨hsound, e, hfirst, hquarrel⟩)
      · exact .faulty hfault
      · cases hquarrel with
        | handler same => exact .sameHandler hsound hfirst same
        | method other path method =>
          have halone := h.filter_lists_eq hfirst.mem method.prop
          rw [path] at halone
          exact .sharedMethod hsound hfirst other method halone
    · intro hverdict
      cases hverdict with
      | faulty fault => exact .inl fault
      | sameHandler sound first same => exact .inr ⟨sound, _, first, .handler same⟩
      | sharedMethod sound first other method alone =>
        have hpath := Route.path_eq_of_not_compatible first.prop other
        exact .inr ⟨sound, _, first, .method other hpath method⟩

theorem answer_addMiddleware_iff {d : Descriptor} (h : d.WellFormed) (m : Middleware)
    (v : Except Rejection Unit) : d.answer (.addMiddleware m) = v ↔ d.MiddlewareVerdict m v := by
  cases v with
  | ok u =>
    rw [answer_addMiddleware_eq_ok_iff]
    constructor
    · rintro ⟨hname, hfits⟩
      exact .accepted hname hfits
    · intro hverdict
      cases hverdict with
      | accepted name fits => exact ⟨name, fits⟩
  | error x =>
    rw [answer_addMiddleware_eq_error_iff]
    constructor
    · rintro (⟨hname, rfl⟩ | ⟨hname, e, hfirst, rfl⟩)
      · exact .faulty hname
      · exact .sameHandler hname (h.filter_generates_eq hfirst.mem hfirst.prop)
    · intro hverdict
      cases hverdict with
      | faulty name => exact .inl ⟨name, rfl⟩
      | sameHandler name alone =>
        obtain ⟨before, behind, heq, hbefore, hsame, -⟩ := List.filter_eq_cons_iff.mp alone
        refine .inr ⟨name, _, ⟨before, behind, heq, of_decide_eq_true hsame, ?_⟩, rfl⟩
        exact fun n hn hname => hbefore n hn (decide_eq_true hname)

/-- A call for a route reports the first fault of the route, or the conflict with the earliest
stored route that there is one with: the handler of that route if both generate one method, and
otherwise the first of their common methods, which that route alone lists on the path. A call for a
middleware reports the handler name that is none, or the one middleware that generates the same
method. Whatever is not reported is accepted. -/
theorem calls_blame_earliest {d : Descriptor} (h : d.Reachable) :
    (∀ (r : Route) (v : Except Rejection Unit),
      d.answer (.addRoute r) = v ↔ d.RouteVerdict r v) ∧
    ∀ (m : Middleware) (v : Except Rejection Unit),
      d.answer (.addMiddleware m) = v ↔ d.MiddlewareVerdict m v :=
  ⟨answer_addRoute_iff h.wellFormed, answer_addMiddleware_iff h.wellFormed⟩

/-- Two routes on one path, and a middleware. -/
def pier : Descriptor :=
  (base { name := "pier" }).afterAll
    [.addRoute { path := "/ships", methods := [.get, .put], handler := "List" },
     .addRoute { path := "/ships", methods := [.post], handler := "GetShip" },
     .addMiddleware { handler := "Guard" }]

/-- A route in conflict with both, by two methods with the first and by all there is with the
second. -/
def getShip : Route := { path := "/ships", methods := [.post, .put, .get], handler := "get_ship" }

theorem pier_blames_earliest :
    pier.Reachable ∧
    pier.answer (.addRoute getShip) = .error (.duplicateRouteMethod "/ships" .put) ∧
    pier.answer (.addMiddleware { handler := "guard" }) = .error (.duplicateHandler "Guard") := by
  have hreachable : pier.Reachable := (Reachable.base _).afterAll _
  obtain ⟨hroutes, hmiddlewares⟩ := calls_blame_earliest hreachable
  refine ⟨hreachable, (hroutes _ _).mpr ?_, (hmiddlewares _ _).mpr ?_⟩
  · let list : Route := { path := "/ships", methods := [.get, .put], handler := "List" }
    have hsound : getShip.Sound := (Route.defect?_eq_none_iff _).mp (by decide)
    have hconflict : ¬ list.Compatible getShip := by
      rw [← Route.conflict?_eq_none_iff]
      decide
    have hroutes : pier.routes =
        list :: [{ path := "/ships", methods := [.post], handler := "GetShip" }] := by
      decide
    have hput : IsFirst (· ∈ list.methods) getShip.methods .put :=
      ⟨[.post], [.get], rfl, by decide, by decide⟩
    exact .sharedMethod hsound ⟨[], _, hroutes, hconflict, nofun⟩ (by decide) hput
      (by decide)
  · have hname : Naming.IsHandlerName "guard" := (Naming.isWord_iff _).mp (by decide)
    exact .sameHandler (e := { handler := "Guard" }) hname (by decide)

end Descriptor

end Scaffold
