import Scaffold.Proofs.Agreement

/-!
Middlewares by priority. The order is a stable sort of the stored list: all of it, the highest
priority first, and equal priorities as they were stored. The bootstrap lists the middlewares in
this order and wraps them from the last to the first, so the first is the outermost layer of the
router.
-/

namespace Scaffold

namespace Descriptor

/-- One middleware may stand in front of another: its priority is not lower. -/
abbrev mayPrecede (m n : Middleware) : Bool := decide (n.priority.toInt ≤ m.priority.toInt)

theorem mayPrecede_trans (a b c : Middleware) (hab : mayPrecede a b = true)
    (hbc : mayPrecede b c = true) : mayPrecede a c = true := by
  rw [decide_eq_true_eq] at hab hbc ⊢
  exact Int.le_trans hbc hab

theorem mayPrecede_total (a b : Middleware) : (mayPrecede a b || mayPrecede b a) = true := by
  rw [Bool.or_eq_true, decide_eq_true_eq, decide_eq_true_eq]
  exact Int.le_total _ _

theorem mayPrecede_iff (m n : Middleware) : mayPrecede m n = true ↔ n.priority ≤ m.priority := by
  rw [decide_eq_true_eq, Int64.le_iff_toInt_le]

/-- Priorities never rise along the order. -/
theorem pairwise_middlewaresByPriority (d : Descriptor) :
    d.middlewaresByPriority.Pairwise fun m n => n.priority ≤ m.priority :=
  (List.pairwise_mergeSort mayPrecede_trans mayPrecede_total d.middlewares).imp fun h =>
    (mayPrecede_iff _ _).mp h

/-- The middlewares of one priority keep the order in which they are stored. -/
theorem filter_middlewaresByPriority (d : Descriptor) (k : Int64) :
    d.middlewaresByPriority.filter (fun m => m.priority = k) =
      d.middlewares.filter fun m => m.priority = k := by
  let alike := d.middlewares.filter fun m => m.priority = k
  have hpriority : ∀ m ∈ alike, m.priority = k := fun m hm =>
    of_decide_eq_true (List.mem_filter.mp hm).2
  have hpairs : alike.Pairwise fun m n => mayPrecede m n = true := by
    refine List.pairwise_of_forall_mem_list fun m hm n hn => (mayPrecede_iff m n).mpr ?_
    rw [hpriority m hm, hpriority n hn]
    exact Int64.le_refl k
  have hsub : alike.Sublist d.middlewaresByPriority :=
    List.sublist_mergeSort mayPrecede_trans mayPrecede_total hpairs List.filter_sublist
  have hfiltered : alike.Sublist (d.middlewaresByPriority.filter fun m => m.priority = k) := by
    have hself : alike.filter (fun m => m.priority = k) = alike :=
      List.filter_eq_self.mpr fun m hm => decide_eq_true (hpriority m hm)
    rw [← hself]
    exact hsub.filter _
  have hlength := (d.perm_middlewaresByPriority.filter fun m => m.priority = k).length_eq
  exact (hfiltered.eq_of_length hlength.symm).symm

/-- Where no two middlewares share a priority, the order does not depend on the stored one. -/
theorem middlewaresByPriority_eq_of_perm {d d' : Descriptor}
    (hperm : d'.middlewares.Perm d.middlewares)
    (hdistinct : (d.middlewares.map (·.priority)).Nodup) :
    d'.middlewaresByPriority = d.middlewaresByPriority := by
  have hall := (d'.perm_middlewaresByPriority.trans hperm).trans d.perm_middlewaresByPriority.symm
  refine List.Perm.eq_of_pairwise ?_ d'.pairwise_middlewaresByPriority
    d.pairwise_middlewaresByPriority hall
  intro m n hm hn hle hge
  have hm' := hperm.mem_iff.mp (d'.perm_middlewaresByPriority.mem_iff.mp hm)
  have hn' := d.perm_middlewaresByPriority.mem_iff.mp hn
  exact List.inj_on_of_nodup_map hdistinct hm' hn' (Int64.le_antisymm hge hle)

end Descriptor

namespace Service

open Source

/-- A router: the routes, or a layer around all that was there before. -/
inductive Layered where
  | routes
  | layer (method : Symbol × String) (inner : Layered)
  deriving DecidableEq, Repr

/-- The layers in the order in which a request passes them. -/
def Layered.outsideIn : Layered → List (Symbol × String)
  | routes => []
  | layer method inner => method :: inner.outsideIn

/-- The elements that a loop goes through, where "mws" names a list. -/
def elements? (mws : List (Symbol × String)) : Expr → Option (List (Symbol × String))
  | .path "mws" => some mws
  | .method sequence "into_iter" [] => elements? mws sequence
  | .method sequence "rev" [] => (elements? mws sequence).map List.reverse
  | _ => none

/-- A layer that hands what it is put around, as a handler, to the middleware of the given name. -/
def layersWith (name : String) : Expr → Bool
  | .call (.imported maker none)
      [.closure true [inner]
        (.call (.path callee)
          [.ref (.path "service"), .call (.imported boxed (some "new")) [.path argument]])] =>
    maker = Vocabulary.layerFn ∧ callee = name ∧ boxed = Vocabulary.boxedService ∧
      argument = inner.name
  | _ => false

/-- What a statement of the loop makes of the router, where `name` stands for the method. -/
def wrapStep? (name : String) (method : Symbol × String) (router : Layered) :
    Stmt → Option Layered
  | .bind "service" _ _ _ => some router
  | .assign (.path "router") (.method (.path "router") "layer" [l]) =>
    if layersWith name l then some (.layer method router) else none
  | _ => none

/-- Runs the statements behind the list of the middlewares, and returns the router. -/
def wrapAll? (mws : List (Symbol × String)) (router : Layered) : List Stmt → Option Layered
  | [.result (.path "router")] => some router
  | .blank :: rest => wrapAll? mws router rest
  | .comment _ :: rest => wrapAll? mws router rest
  | .loop name sequence body :: rest => do
    let elements ← elements? mws sequence
    let router ← elements.foldlM (fun r m => body.foldlM (wrapStep? name m) r) router
    wrapAll? mws router rest
  | _ => none

/-- The router that a file makes of its routes, by its function for the middlewares. -/
def fileRouter? (f : File) : Option Layered := do
  let function ← f.items.findSome? (namedFunction? "middlewares")
  wrapAll? (← layers? function) .routes function.body.tail

/-- One round of the loop puts its middleware around all that was there before. -/
theorem foldlM_applyMiddleware (m : Symbol × String) (router : Layered) :
    applyMiddleware.value.foldlM (wrapStep? "mw" m) router = some (.layer m router) := rfl

theorem foldlM_rounds (ms : List (Symbol × String)) (router : Layered) :
    ∃ wrapped, ms.foldlM (fun r m => applyMiddleware.value.foldlM (wrapStep? "mw" m) r) router =
        some wrapped ∧ wrapped.outsideIn = ms.reverse ++ router.outsideIn := by
  induction ms generalizing router with
  | nil => exact ⟨router, rfl, rfl⟩
  | cons m ms ih =>
    obtain ⟨wrapped, hrun, hlayers⟩ := ih (.layer m router)
    refine ⟨wrapped, ?_, ?_⟩
    · rw [List.foldlM_cons, foldlM_applyMiddleware]
      exact hrun
    · rw [hlayers, Layered.outsideIn, List.reverse_cons, List.append_assoc]
      rfl

/-- The loop runs over the list from its end, so the first middleware comes last and outermost. -/
theorem fileRouter?_bootstrap (d : Descriptor) :
    ∃ router, fileRouter? (bootstrap d) = some router ∧
      router.outsideIn = layers d (.ofProject d.info.name) := by
  let n := Names.ofProject d.info.name
  obtain ⟨router, hrun, hlayers⟩ := foldlM_rounds (layers d n).reverse .routes
  have hlist : layers? (middlewaresFunction d n).value = some (layers d n) :=
    fileLayers?_bootstrap d
  refine ⟨router, ?_, ?_⟩
  · have hfile : fileRouter? (bootstrap d) =
        (layers? (middlewaresFunction d n).value).bind fun mws =>
          (mws.reverse.foldlM (fun r m => applyMiddleware.value.foldlM (wrapStep? "mw" m) r)
            Layered.routes).bind some := rfl
    rw [hfile, hlist, Option.bind_some, hrun, Option.bind_some]
  · rw [hlayers, List.reverse_reverse]
    exact List.append_nil _

/-- The bootstrap reads the middlewares in the order of their priorities only. -/
theorem bootstrap_congr {d d' : Descriptor} (hinfo : d'.info = d.info)
    (hroutes : d'.routes = d.routes)
    (horder : d'.middlewaresByPriority = d.middlewaresByPriority) : bootstrap d' = bootstrap d := by
  have hendpoints : d'.endpoints = d.endpoints := by
    rw [Descriptor.endpoints_eq, Descriptor.endpoints_eq]
    simp only [Descriptor.routed, Descriptor.redirectBlocked, hroutes]
  simp only [bootstrap, routesFunction, middlewaresFunction, hinfo, hendpoints, horder]

/-- The order by priority is a stable sort of the stored list, which the contract keeps as it is;
the bootstrap lists the methods in this order, and what its loop makes of the router has them as
layers in this order from the outside in. So where no two priorities are equal, the bootstrap does
not show in which order the middlewares are stored. -/
theorem middlewares_nest_by_priority (d : Descriptor) :
    let n := Names.ofProject d.info.name
    d.middlewaresByPriority.Perm d.middlewares ∧
    (d.middlewaresByPriority.Pairwise fun m n => n.priority ≤ m.priority) ∧
    (∀ k : Int64, d.middlewaresByPriority.filter (fun m => m.priority = k) =
      d.middlewares.filter fun m => m.priority = k) ∧
    (∃ demanded, (n.middleware, demanded) ∈ traits (contract d) ∧
      demanded.map (·.name) = d.middlewares.map fun m => Naming.methodName m.handler) ∧
    fileLayers? (bootstrap d) = some (layers d n) ∧
    (∃ router, fileRouter? (bootstrap d) = some router ∧ router.outsideIn = layers d n) ∧
    ∀ d' : Descriptor, d'.info = d.info → d'.routes = d.routes →
      d'.middlewares.Perm d.middlewares → (d.middlewares.map (·.priority)).Nodup →
        Artifact.render d' .bootstrap = Artifact.render d .bootstrap ∧
        (d.Reachable → Naming.isProjectName d.info.name = true →
          ∃ text, Artifact.render d .bootstrap = .ok text) := by
  intro n
  refine ⟨d.perm_middlewaresByPriority, d.pairwise_middlewaresByPriority,
    d.filter_middlewaresByPriority, ⟨middlewareMethods d, ?_, ?_⟩, fileLayers?_bootstrap d,
    fileRouter?_bootstrap d, ?_⟩
  · rw [traits_contract]
    simp [n]
  · rw [middlewareMethods, List.map_map]
    rfl
  · intro d' hinfo hroutes hperm hdistinct
    have horder := Descriptor.middlewaresByPriority_eq_of_perm hperm hdistinct
    have hsame := bootstrap_congr hinfo hroutes horder
    exact ⟨congrArg Source.File.render hsame, fun hd hname => bootstrap_renders hd.wellFormed hname⟩

/-- A fleet with middlewares of the lowest, the highest and the usual priority. -/
def watchedFleet (ms : List Middleware) : Descriptor :=
  (Descriptor.base { name := "fleet" }).afterAll (ms.map .addMiddleware)

def watch : List Middleware :=
  [{ handler := "Logger", priority := -9223372036854775808 },
   { handler := "Guard", priority := 9223372036854775807 },
   { handler := "Cache" }]

theorem watch_nests_by_priority :
    (watchedFleet watch).Reachable ∧
    (watchedFleet watch.reverse).middlewares.Perm (watchedFleet watch).middlewares ∧
    ((watchedFleet watch).middlewares.map (·.priority)).Nodup ∧
    (∃ text, Artifact.render (watchedFleet watch.reverse) .bootstrap = .ok text ∧
      Artifact.render (watchedFleet watch) .bootstrap = .ok text) ∧
    ∃ router, fileRouter? (bootstrap (watchedFleet watch)) = some router ∧
      router.outsideIn.map (·.2) = ["Guard", "Cache", "Logger"].map Naming.methodName := by
  have hreachable : (watchedFleet watch).Reachable := (Descriptor.Reachable.base _).afterAll _
  have hstored : (watchedFleet watch).middlewares = watch := by decide +kernel
  have hreversed : (watchedFleet watch.reverse).middlewares = watch.reverse := by decide +kernel
  have hperm : (watchedFleet watch.reverse).middlewares.Perm (watchedFleet watch).middlewares := by
    rw [hstored, hreversed]
    exact List.reverse_perm _
  have hdistinct : ((watchedFleet watch).middlewares.map (·.priority)).Nodup := by
    rw [hstored]
    decide +kernel
  obtain ⟨-, -, -, -, -, ⟨router, hrun, hlayers⟩, hrender⟩ :=
    middlewares_nest_by_priority (watchedFleet watch)
  obtain ⟨hsame, htext⟩ := hrender (watchedFleet watch.reverse) (by decide +kernel)
    (by decide +kernel) hperm hdistinct
  obtain ⟨text, htext⟩ := htext hreachable (by decide +kernel)
  refine ⟨hreachable, hperm, hdistinct, ⟨text, hsame.trans htext, htext⟩, router, hrun, ?_⟩
  have horder : (watchedFleet watch).middlewaresByPriority = watch.tail ++ watch.take 1 := by
    let sorted : Descriptor := { watchedFleet watch with middlewares := watch.tail ++ watch.take 1 }
    have hself : sorted.middlewaresByPriority = watch.tail ++ watch.take 1 :=
      List.mergeSort_of_pairwise (by decide +kernel)
    rw [← hself]
    refine Descriptor.middlewaresByPriority_eq_of_perm ?_ (by decide +kernel)
    rw [hstored]
    exact (List.perm_append_comm : (watch.take 1 ++ watch.tail).Perm _)
  rw [hlayers, layers, horder, List.map_map]
  rfl

end Service

end Scaffold
