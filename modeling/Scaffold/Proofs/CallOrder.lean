import Mathlib.Data.List.Nodup
import Scaffold.Proofs.Rules

/-!
The order of calls. Whether all entries of a list are accepted is decided by the entries and not by
their order: each has to obey the rules that speak of it alone, and no two may conflict. Calls for
routes and calls for middlewares look at two lists, so a run that makes both, interleaved in any
way, answers each call as the run of its own kind does.
-/

namespace Scaffold

namespace Descriptor

variable {d : Descriptor}

/-- The calls of a run, each with its answer where it was made. -/
def answered (d : Descriptor) : List Call → List (Call × Except Rejection Unit)
  | [] => []
  | c :: cs => (c, d.answer c) :: (d.after c).answered cs

/-- No call of the run is refused. -/
def AcceptsAll (d : Descriptor) (calls : List Call) : Prop :=
  ∀ p ∈ d.answered calls, p.2 = .ok ()

theorem acceptsAll_cons (c : Call) (cs : List Call) :
    d.AcceptsAll (c :: cs) ↔ d.answer c = .ok () ∧ (d.after c).AcceptsAll cs := by
  simp [AcceptsAll, answered]

/-- Entries are accepted one after the other exactly if they are sound, go with the entries that are
stored, and go with each other. -/
theorem acceptsAll_map_iff {α : Type} {call : α → Call} {stored : Descriptor → List α}
    {sound : α → Prop} {beside : α → α → Prop}
    (hanswer : ∀ d x, answer d (call x) = .ok () ↔ sound x ∧ ∀ s ∈ stored d, beside s x)
    (hstore : ∀ d x, answer d (call x) = .ok () → stored (d.after (call x)) = stored d ++ [x])
    (d : Descriptor) (xs : List α) :
    d.AcceptsAll (xs.map call) ↔
      (∀ x ∈ xs, sound x) ∧ xs.Pairwise beside ∧ ∀ s ∈ stored d, ∀ x ∈ xs, beside s x := by
  induction xs generalizing d with
  | nil => simp [AcceptsAll, answered]
  | cons x xs ih =>
    rw [List.map_cons, acceptsAll_cons, ih]
    constructor
    · rintro ⟨hx, hsound, hpairs, hstored⟩
      obtain ⟨hsoundx, hbeside⟩ := (hanswer d x).mp hx
      rw [hstore d x hx] at hstored
      refine ⟨List.forall_mem_cons.mpr ⟨hsoundx, hsound⟩, List.pairwise_cons.mpr ⟨?_, hpairs⟩, ?_⟩
      · exact hstored x (List.mem_append_right _ (List.mem_singleton.mpr rfl))
      · intro s hs
        exact List.forall_mem_cons.mpr ⟨hbeside s hs, hstored s (List.mem_append_left _ hs)⟩
    · rintro ⟨hsound, hpairs, hstored⟩
      obtain ⟨hsoundx, hsound⟩ := List.forall_mem_cons.mp hsound
      obtain ⟨hfirst, hpairs⟩ := List.pairwise_cons.mp hpairs
      have hx : d.answer (call x) = .ok () :=
        (hanswer d x).mpr ⟨hsoundx, fun s hs => hstored s hs x List.mem_cons_self⟩
      refine ⟨hx, hsound, hpairs, ?_⟩
      rw [hstore d x hx]
      intro s hs y hy
      rcases List.mem_append.mp hs with hs | hs
      · exact hstored s hs y (List.mem_cons_of_mem x hy)
      · rw [List.mem_singleton.mp hs]
        exact hfirst y hy

theorem answer_addRoute (d : Descriptor) (r : Route) :
    d.answer (.addRoute r) =
      (r.defect? <|> d.routes.findSome? r.conflict?).elim (.ok ()) .error := by
  rw [answer, Call.edit, Edit.addRoute, Edit.runOn_accept]
  cases r.defect? <|> d.routes.findSome? r.conflict? <;> rfl

theorem answer_addRoute_eq_ok_iff (d : Descriptor) (r : Route) :
    d.answer (.addRoute r) = .ok () ↔ r.Sound ∧ ∀ s ∈ d.routes, s.Compatible r := by
  simp only [← Route.defect?_eq_none_iff, ← Route.conflict?_eq_none_iff]
  rw [answer_addRoute, ← orElse_findSome?_eq_none_iff]
  cases r.defect? <|> d.routes.findSome? r.conflict? <;> simp

theorem answer_addMiddleware (d : Descriptor) (m : Middleware) :
    d.answer (.addMiddleware m) =
      (m.defect? <|> d.middlewares.findSome? m.conflict?).elim (.ok ()) .error := by
  rw [answer, Call.edit, Edit.addMiddleware, Edit.runOn_accept]
  cases m.defect? <|> d.middlewares.findSome? m.conflict? <;> rfl

theorem answer_addMiddleware_eq_ok_iff (d : Descriptor) (m : Middleware) :
    d.answer (.addMiddleware m) = .ok () ↔ Naming.IsHandlerName m.handler ∧
      ∀ n ∈ d.middlewares, Naming.methodName n.handler ≠ Naming.methodName m.handler := by
  simp only [← Middleware.defect?_eq_none_iff, ← Middleware.conflict?_eq_none_iff]
  rw [answer_addMiddleware, ← orElse_findSome?_eq_none_iff]
  cases m.defect? <|> d.middlewares.findSome? m.conflict? <;> simp

theorem acceptsAll_addRoute_iff (info : Info) (rs : List Route) :
    (base info).AcceptsAll (rs.map .addRoute) ↔
      (∀ r ∈ rs, r.Sound) ∧ rs.Pairwise Route.Compatible := by
  have hstore : ∀ d r, answer d (.addRoute r) = .ok () →
      (d.after (.addRoute r)).routes = d.routes ++ [r] :=
    fun d r h => by rw [eq_of_grow ((answer_eq_ok_iff d _).mp h)]; rfl
  rw [acceptsAll_map_iff answer_addRoute_eq_ok_iff hstore]
  simp [base]

theorem acceptsAll_addMiddleware_iff (info : Info) (ms : List Middleware) :
    (base info).AcceptsAll (ms.map .addMiddleware) ↔
      (∀ m ∈ ms, Naming.IsHandlerName m.handler) ∧
        (ms.map fun m => Naming.methodName m.handler).Nodup := by
  have hstore : ∀ d m, answer d (.addMiddleware m) = .ok () →
      (d.after (.addMiddleware m)).middlewares = d.middlewares ++ [m] :=
    fun d m h => by rw [eq_of_grow ((answer_eq_ok_iff d _).mp h)]; rfl
  rw [acceptsAll_map_iff answer_addMiddleware_eq_ok_iff hstore, List.Nodup, List.pairwise_map]
  simp [base]

end Descriptor

/-- One of the calls is for a route and the other for a middleware. -/
inductive Call.Apart : Call → Call → Prop
  | route (r : Route) (m : Middleware) : Apart (.addRoute r) (.addMiddleware m)
  | middleware (m : Middleware) (r : Route) : Apart (.addMiddleware m) (.addRoute r)

/-- The run makes the calls for the routes and those for the middlewares, each kind in its order. -/
inductive Interleaves : List Route → List Middleware → List Call → Prop
  | nil : Interleaves [] [] []
  | route {rs : List Route} {ms : List Middleware} {calls : List Call} (r : Route) :
      Interleaves rs ms calls → Interleaves (r :: rs) ms (.addRoute r :: calls)
  | middleware {rs : List Route} {ms : List Middleware} {calls : List Call} (m : Middleware) :
      Interleaves rs ms calls → Interleaves rs (m :: ms) (.addMiddleware m :: calls)

namespace Descriptor

variable {d : Descriptor} {c c' : Call}

theorem after_addRoute (d : Descriptor) (r : Route) :
    d.after (.addRoute r) =
      (r.defect? <|> d.routes.findSome? r.conflict?).elim { d with routes := d.routes ++ [r] }
        fun _ => d := by
  rw [after, Call.edit, Edit.addRoute, Edit.runOn_accept]
  cases r.defect? <|> d.routes.findSome? r.conflict? <;> rfl

theorem after_addMiddleware (d : Descriptor) (m : Middleware) :
    d.after (.addMiddleware m) =
      (m.defect? <|> d.middlewares.findSome? m.conflict?).elim
        { d with middlewares := d.middlewares ++ [m] } fun _ => d := by
  rw [after, Call.edit, Edit.addMiddleware, Edit.runOn_accept]
  cases m.defect? <|> d.middlewares.findSome? m.conflict? <;> rfl

theorem middlewares_after_addRoute (d : Descriptor) (r : Route) :
    (d.after (.addRoute r)).middlewares = d.middlewares := by
  rw [after_addRoute]
  cases r.defect? <|> d.routes.findSome? r.conflict? <;> rfl

theorem routes_after_addMiddleware (d : Descriptor) (m : Middleware) :
    (d.after (.addMiddleware m)).routes = d.routes := by
  rw [after_addMiddleware]
  cases m.defect? <|> d.middlewares.findSome? m.conflict? <;> rfl

theorem answer_after (h : c.Apart c') : (d.after c).answer c' = d.answer c' := by
  cases h with
  | route r m => rw [answer_addMiddleware, answer_addMiddleware, middlewares_after_addRoute]
  | middleware m r => rw [answer_addRoute, answer_addRoute, routes_after_addMiddleware]

/-- Each of the calls appends to its own list or to none, by what it finds in that list. -/
theorem after_route_middleware (d : Descriptor) (r : Route) (m : Middleware) :
    (d.after (.addRoute r)).after (.addMiddleware m) =
      (d.after (.addMiddleware m)).after (.addRoute r) := by
  rw [after_addMiddleware, middlewares_after_addRoute, after_addRoute, after_addRoute,
    routes_after_addMiddleware, after_addMiddleware]
  cases r.defect? <|> d.routes.findSome? r.conflict? <;>
    cases m.defect? <|> d.middlewares.findSome? m.conflict? <;> rfl

theorem after_comm (h : c.Apart c') : (d.after c).after c' = (d.after c').after c := by
  cases h with
  | route r m => exact after_route_middleware d r m
  | middleware m r => exact (after_route_middleware d r m).symm

/-- A call does not show in the answers to calls of the other kind. -/
theorem answered_after {calls : List Call} (h : ∀ c' ∈ calls, c.Apart c') :
    (d.after c).answered calls = d.answered calls := by
  induction calls generalizing d with
  | nil => rfl
  | cons c' cs ih =>
    obtain ⟨hc', hcs⟩ := List.forall_mem_cons.mp h
    rw [answered, answered, answer_after hc', after_comm hc', ih hcs]

theorem afterAll_after {calls : List Call} (h : ∀ c' ∈ calls, c.Apart c') :
    (d.after c).afterAll calls = (d.afterAll calls).after c := by
  induction calls generalizing d with
  | nil => rfl
  | cons c' cs ih =>
    obtain ⟨hc', hcs⟩ := List.forall_mem_cons.mp h
    rw [afterAll_cons, afterAll_cons, after_comm hc', ih hcs]

theorem apart_addMiddleware (r : Route) (ms : List Middleware) :
    ∀ c ∈ ms.map Call.addMiddleware, (Call.addRoute r).Apart c := by
  intro c hc
  obtain ⟨m, -, rfl⟩ := List.mem_map.mp hc
  exact .route r m

theorem apart_addRoute (m : Middleware) (rs : List Route) :
    ∀ c ∈ rs.map Call.addRoute, (Call.addMiddleware m).Apart c := by
  intro c hc
  obtain ⟨r, -, rfl⟩ := List.mem_map.mp hc
  exact .middleware m r

theorem afterAll_append (cs cs' : List Call) :
    d.afterAll (cs ++ cs') = (d.afterAll cs).afterAll cs' := List.foldl_append

variable {rs : List Route} {ms : List Middleware} {calls : List Call}

theorem answered_routes (h : Interleaves rs ms calls) :
    (d.answered calls).filter (·.1.route?.isSome) = d.answered (rs.map .addRoute) := by
  induction h generalizing d with
  | nil => rfl
  | route r _ ih => exact congrArg (_ :: ·) ih
  | middleware m _ ih => exact ih.trans (answered_after (apart_addRoute m _))

theorem answered_middlewares (h : Interleaves rs ms calls) :
    (d.answered calls).filter (·.1.middleware?.isSome) = d.answered (ms.map .addMiddleware) := by
  induction h generalizing d with
  | nil => rfl
  | route r _ ih => exact ih.trans (answered_after (apart_addMiddleware r _))
  | middleware m _ ih => exact congrArg (_ :: ·) ih

/-- Every interleaving ends as the run that makes the calls for the routes first. -/
theorem afterAll_interleaves (h : Interleaves rs ms calls) :
    d.afterAll calls = d.afterAll (rs.map .addRoute ++ ms.map .addMiddleware) := by
  induction h generalizing d with
  | nil => rfl
  | route r _ ih => exact ih
  | @middleware rs ms calls m _ ih =>
    calc
      (d.after (.addMiddleware m)).afterAll calls =
          ((d.after (.addMiddleware m)).afterAll (rs.map .addRoute)).afterAll
            (ms.map .addMiddleware) := by
        rw [ih, afterAll_append]
      _ = ((d.afterAll (rs.map .addRoute)).after (.addMiddleware m)).afterAll
            (ms.map .addMiddleware) := by
        rw [afterAll_after (apart_addRoute m rs)]
      _ = d.afterAll (rs.map .addRoute ++ (m :: ms).map .addMiddleware) := by
        rw [afterAll_append, List.map_cons, afterAll_cons]

/-- All of some routes are accepted in one order exactly if they are in any other, namely if each is
sound and no two conflict, and likewise middlewares. In a run of calls of both kinds each call is
answered as it is without those of the other kind, and all such runs leave one descriptor. -/
theorem acceptance_ignores_order :
    (∀ (info : Info) (rs rs' : List Route), rs.Perm rs' →
      ((base info).AcceptsAll (rs.map .addRoute) ↔ (base info).AcceptsAll (rs'.map .addRoute)) ∧
      ((base info).AcceptsAll (rs.map .addRoute) ↔
        (∀ r ∈ rs, r.Sound) ∧ rs.Pairwise Route.Compatible)) ∧
    (∀ (info : Info) (ms ms' : List Middleware), ms.Perm ms' →
      ((base info).AcceptsAll (ms.map .addMiddleware) ↔
        (base info).AcceptsAll (ms'.map .addMiddleware)) ∧
      ((base info).AcceptsAll (ms.map .addMiddleware) ↔
        (∀ m ∈ ms, Naming.IsHandlerName m.handler) ∧
          (ms.map fun m => Naming.methodName m.handler).Nodup)) ∧
    ∀ (d : Descriptor) (rs : List Route) (ms : List Middleware) (calls : List Call),
      Interleaves rs ms calls →
        (d.answered calls).filter (·.1.route?.isSome) = d.answered (rs.map .addRoute) ∧
        (d.answered calls).filter (·.1.middleware?.isSome) = d.answered (ms.map .addMiddleware) ∧
        d.afterAll calls = d.afterAll (rs.map .addRoute ++ ms.map .addMiddleware) := by
  refine ⟨fun info rs rs' hperm => ⟨?_, acceptsAll_addRoute_iff info rs⟩,
    fun info ms ms' hperm => ⟨?_, acceptsAll_addMiddleware_iff info ms⟩,
    fun d rs ms calls h => ⟨answered_routes h, answered_middlewares h, afterAll_interleaves h⟩⟩
  · rw [acceptsAll_addRoute_iff, acceptsAll_addRoute_iff]
    refine and_congr ?_ (hperm.pairwise_iff fun h => symm h)
    simp only [hperm.mem_iff]
  · rw [acceptsAll_addMiddleware_iff, acceptsAll_addMiddleware_iff]
    refine and_congr ?_ (hperm.map _).nodup_iff
    simp only [hperm.mem_iff]

/-- Two routes that share a path, and two middlewares of which the second is refused. -/
def harbourRoutes : List Route :=
  [{ path := "/ships", methods := [.get], handler := "List" },
   { path := "/ships", methods := [.put], handler := "Store" }]

def harbourLayers : List Middleware := [{ handler := "AuditLog" }, { handler := "audit_log" }]

def harbourCalls : List Call :=
  (harbourLayers.zip harbourRoutes).flatMap fun p => [.addMiddleware p.1, .addRoute p.2]

theorem acceptance_ignores_order_of_harbour :
    harbourRoutes.Perm harbourRoutes.reverse ∧
    Interleaves harbourRoutes harbourLayers harbourCalls ∧
    (base {}).AcceptsAll (harbourRoutes.reverse.map .addRoute) ∧
    ¬ (base {}).AcceptsAll (harbourLayers.map .addMiddleware) ∧
    (base {}).afterAll harbourCalls =
      { routes := harbourRoutes, middlewares := harbourLayers.take 1 } := by
  obtain ⟨hroutes, hmiddlewares, hinterleaved⟩ := acceptance_ignores_order
  have hperm : harbourRoutes.Perm harbourRoutes.reverse := (List.reverse_perm _).symm
  have hcalls : Interleaves harbourRoutes harbourLayers harbourCalls :=
    .middleware _ (.route _ (.middleware _ (.route _ .nil)))
  refine ⟨hperm, hcalls, ?_, ?_, ?_⟩
  · rw [← (hroutes {} _ _ hperm).1]
    unfold AcceptsAll
    decide +kernel
  · rw [(hmiddlewares {} _ _ (.refl harbourLayers)).2]
    exact fun h => absurd h.2 (by decide +kernel)
  · rw [(hinterleaved (base {}) _ _ _ hcalls).2.2]
    decide +kernel

end Descriptor

end Scaffold
