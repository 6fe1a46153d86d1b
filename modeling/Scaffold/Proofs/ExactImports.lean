import Scaffold.Proofs.Declarations
import Scaffold.Proofs.Nodes

/-!
What the files of a service import. Each template notes just what its tree speaks of, whatever
routes and middlewares there are, so a file imports the symbols that its items speak of. Only the
stub imports more, which are two traits for the methods that they lend. A file reserves the names of
its items.
-/

namespace Scaffold

namespace Source

/-- What a part notes as spoken is just what its tree speaks of. -/
def Noted.Exact {α : Type} (requirements : Speaker → α → List Requirement) (x : Noted α) : Prop :=
  ∀ (speak : Speaker) (s : Symbol), .registered s ∈ requirements speak x.value ↔ s ∈ x.spoken

section

variable {items : List (Noted Item)} (doc declared : List String)

/-- A file of exact items speaks of what they note. -/
theorem File.speaksOf_iff_of_exact (h : ∀ x ∈ items, x.Exact Item.requirements) (s : Symbol) :
    (File.ofNoted doc declared items).SpeaksOf s ↔ ∃ x ∈ items, s ∈ x.spoken := by
  rw [File.speaksOf_iff _ (File.ofNoted doc declared items).speaker, mem_itemRequirements_iff]
  generalize (File.ofNoted doc declared items).speaker = speak
  simp only [File.ofNoted, List.mem_map, exists_exists_and_eq_and]
  exact exists_congr fun x => and_congr_right fun hx => h x hx speak s

theorem File.mem_symbols_iff_of_exact (h : ∀ x ∈ items, x.Exact Item.requirements) (s : Symbol) :
    s ∈ (File.ofNoted doc declared items).imports.symbols ↔
      (File.ofNoted doc declared items).SpeaksOf s ∨ ∃ x ∈ items, s ∈ x.lent := by
  rw [File.speaksOf_iff_of_exact doc declared h, File.ofNoted, mem_symbols_ofLists,
    List.mem_flatMap]
  simp only [Noted.symbols, List.mem_append, and_or_left, exists_or]

/-- Where no item is lent methods, a file imports what it speaks of. -/
theorem File.mem_symbols_iff_speaksOf (h : ∀ x ∈ items, x.Exact Item.requirements)
    (hlent : ∀ x ∈ items, x.lent = []) (s : Symbol) :
    s ∈ (File.ofNoted doc declared items).imports.symbols ↔
      (File.ofNoted doc declared items).SpeaksOf s := by
  refine (File.mem_symbols_iff_of_exact doc declared h s).trans (or_iff_left ?_)
  rintro ⟨x, hx, hs⟩
  rw [hlent x hx] at hs
  cases hs

end

/-- A part that speaks of nothing. -/
theorem Noted.Exact.pure {α : Type} {requirements : Speaker → α → List Requirement} {a : α}
    (h : ∀ speak s, .registered s ∉ requirements speak a) :
    (Pure.pure a : Noted α).Exact requirements :=
  fun speak s => iff_of_false (h speak s) List.not_mem_nil

end Source

namespace Service

open Source Vocabulary

variable {n : Names} {d : Descriptor} {s : Symbol}

theorem exact_routeStub (r : Route) (w : Wiring) : (routeStub r w).Exact Function.requirements := by
  intro speak s
  simp [routeStub, routeSignature, Function.requirements, Signature.requirements,
    importedHandlerTy, boxedHandler, unimplementedHandler]
  grind

theorem exact_middlewareStub (m : Middleware) :
    (middlewareStub m).Exact Function.requirements := by
  intro speak s
  simp [middlewareStub, middlewareSignature, Function.requirements, Signature.requirements,
    importedHandlerTy, boxedHandler, forwardingHandler]
  grind

theorem exact_capabilityImpl {α : Type} (capability : String) {f : α → Noted Function}
    (xs : List α) (h : ∀ x, (f x).Exact Function.requirements) :
    (capabilityImpl capability (.each f xs)).Exact Item.requirements := by
  intro speak s
  simp [capabilityImpl, fun x => h x speak s]

theorem exact_requestHandlerItem : requestHandlerItem.Exact Item.requirements := by
  intro speak s
  simp [requestHandlerItem]
  grind

theorem exact_routerItem : routerItem.Exact Item.requirements := by
  intro speak s
  simp [routerItem, sharedService]

theorem exact_endpointItem : endpointItem.Exact Item.requirements := by
  intro speak s
  simp [endpointItem, importedHandlerTy]

theorem exact_middlewareFnItem : middlewareFnItem.Exact Item.requirements := by
  intro speak s
  simp [middlewareFnItem, importedHandlerTy]

theorem exact_routerImpl : (routerImpl n).Exact Item.requirements := by
  intro speak s
  simp [routerImpl, newFunction, serviceImplFunction, intoRouterFunction, serviceGeneric,
    Function.requirements, Signature.requirements]

theorem exact_methodFilterExpr (ms : List Method) :
    (methodFilterExpr ms).Exact Expr.requirements := by
  intro speak s
  have hfold (ms : List Method) (set : Expr)
      (hset : .registered s ∈ set.requirements speak ↔ s = methodFilter) :
      .registered s ∈ (ms.foldl (fun set m => .method set "or" [.ofMember methodFilter m.name])
        set).requirements speak ↔ s = methodFilter := by
    induction ms generalizing set with
    | nil => exact hset
    | cons m ms ih => exact ih _ (by simp [hset])
  cases ms with
  | nil => simp [methodFilterExpr]
  | cons m ms =>
    have hfilters := hfold ms (.ofMember methodFilter m.name) (by simp)
    simp [methodFilterExpr, List.foldl_map, hfilters]

theorem exact_capabilityMethod (capability handler : String) :
    (capabilityMethod capability handler).Exact Expr.requirements := by
  intro speak s
  simp [capabilityMethod]

theorem exact_endpointExpr (n : Names) (e : Endpoint) :
    (endpointExpr n e).Exact Expr.requirements := by
  intro speak s
  simp [endpointExpr, exact_methodFilterExpr _ speak s, exact_capabilityMethod _ _ speak s]

theorem exact_routesFunction (d : Descriptor) (n : Names) :
    (Item.function <$> routesFunction d n).Exact Item.requirements := by
  intro speak s
  simp [routesFunction, registerEndpoint, registerHandler, registerRedirect, byMethods, addToRouter,
    endpointField, serviceGeneric, Function.requirements, Signature.requirements,
    mem_exprRequirements_iff, fun e => exact_endpointExpr n e speak s]
  grind

theorem exact_middlewaresFunction (d : Descriptor) (n : Names) :
    (Item.function <$> middlewaresFunction d n).Exact Item.requirements := by
  intro speak s
  simp [middlewaresFunction, applyMiddleware, serviceGeneric, sharedService, Function.requirements,
    Signature.requirements, mem_exprRequirements_iff,
    fun handler => exact_capabilityMethod n.middleware handler speak s]
  grind

theorem exact_redirectFunction : (Item.function <$> redirectFunction).Exact Item.requirements := by
  intro speak s
  simp [redirectFunction, Function.requirements, Signature.requirements]
  grind

theorem exact_mainFunction (n : Names) :
    (Item.function <$> mainFunction n).Exact Item.requirements := by
  intro speak s
  simp [mainFunction, Function.requirements, Signature.requirements]

/-- The traits that the stub imports for their methods. -/
def lentSymbols (d : Descriptor) : List Symbol :=
  (if d.routes.isEmpty then [] else [intoResponse]) ++
    (if d.middlewares.isEmpty then [] else [serviceExt])

theorem exact_stub (d : Descriptor) (n : Names) :
    ∀ x ∈ [pure generatedModules, pure (serverItem n),
      capabilityImpl n.handler (.each (fun p => routeStub p.1 p.2) d.wirings),
      capabilityImpl n.middleware (.each middlewareStub d.middlewares)],
      x.Exact Item.requirements := by
  simp only [List.forall_mem_cons, List.not_mem_nil, false_implies, implies_true, and_true]
  exact ⟨.pure (by simp [generatedModules, itemRequirements]), .pure (by simp [serverItem]),
    exact_capabilityImpl _ _ fun p => exact_routeStub p.1 p.2,
    exact_capabilityImpl _ _ exact_middlewareStub⟩

theorem wirings_ne_nil_iff (d : Descriptor) : d.wirings ≠ [] ↔ d.routes ≠ [] := by
  rw [← d.map_fst_wirings]
  simp

/-- What every entry says alike is said if there is an entry. -/
theorem exists_mem_and_iff {α : Type} {xs : List α} {p : Prop} :
    (∃ x ∈ xs, p) ↔ xs ≠ [] ∧ p := by
  cases xs <;> simp

theorem mem_symbols_stub_iff :
    s ∈ (stub d).imports.symbols ↔ (stub d).SpeaksOf s ∨ s ∈ lentSymbols d := by
  have hitems := exact_stub d (Names.ofProject d.info.name)
  have hlent : (∃ p ∈ d.wirings, s = intoResponse) ∨ (∃ m ∈ d.middlewares, s = serviceExt) ↔
      s ∈ lentSymbols d := by
    rw [exists_mem_and_iff, exists_mem_and_iff, wirings_ne_nil_iff]
    simp [lentSymbols, List.mem_ite_nil_left]
  refine (File.mem_symbols_iff_of_exact _ _ hitems s).trans (or_congr_right ?_)
  rw [← hlent]
  simp [capabilityImpl, routeStub, middlewareStub, importedHandlerTy, boxedHandler,
    unimplementedHandler, forwardingHandler]

/-- The traits whose methods the stub calls are not named in it. -/
theorem not_speaksOf_of_mem_lentSymbols (hs : s ∈ lentSymbols d) : ¬ (stub d).SpeaksOf s := by
  have hlent : s ∈ [intoResponse, serviceExt] := by
    simp only [lentSymbols, List.mem_append, List.mem_ite_nil_left, List.mem_cons,
      List.not_mem_nil, or_false] at hs ⊢
    exact hs.imp And.right And.right
  rw [stub, File.speaksOf_iff_of_exact _ _ (exact_stub d _)]
  simp only [List.mem_cons, List.not_mem_nil, or_false] at hlent
  rcases hlent with rfl | rfl <;>
    simp [capabilityImpl, routeStub, middlewareStub, importedHandlerTy, boxedHandler,
      unimplementedHandler, forwardingHandler, contractItem, contractModule, intoResponse,
      serviceExt, request, infallible, statusCode, boxedService, serviceFn]

theorem exact_contract (d : Descriptor) (n : Names) :
    ∀ x ∈ [requestHandlerItem, pure (serviceTrait n), pure (serviceImpl n),
      pure (handlerTrait d n), pure (middlewareTrait d n)], x.Exact Item.requirements := by
  simp only [List.forall_mem_cons, List.not_mem_nil, false_implies, implies_true, and_true]
  refine ⟨exact_requestHandlerItem, .pure ?_, .pure ?_, .pure ?_, .pure ?_⟩
  · simp [serviceTrait, capabilities]
  · simp [serviceImpl, capabilities]
  · simp [handlerTrait, threadSafe, routeSignature, Signature.requirements, declaredHandlerTy]
  · simp [middlewareTrait, threadSafe, middlewareSignature, Signature.requirements,
      declaredHandlerTy]

theorem exact_bootstrap (d : Descriptor) (n : Names) :
    ∀ x ∈ [routerItem, endpointItem, middlewareFnItem, routerImpl n,
      .function <$> routesFunction d n, .function <$> middlewaresFunction d n,
      pure (.function toggleFunction), .function <$> redirectFunction],
      x.Exact Item.requirements := by
  simp only [List.forall_mem_cons, List.not_mem_nil, false_implies, implies_true, and_true]
  exact ⟨exact_routerItem, exact_endpointItem, exact_middlewareFnItem, exact_routerImpl,
    exact_routesFunction d n, exact_middlewaresFunction d n,
    .pure (by simp [toggleFunction, Function.requirements, Signature.requirements]),
    exact_redirectFunction⟩

theorem exact_entrypoint (n : Names) :
    ∀ x ∈ [pure addressItem, .function <$> mainFunction n], x.Exact Item.requirements := by
  simp only [List.forall_mem_cons, List.not_mem_nil, false_implies, implies_true, and_true]
  exact ⟨.pure (by simp [addressItem]), exact_mainFunction n⟩

theorem lent_bootstrap (d : Descriptor) (n : Names) :
    ∀ x ∈ [routerItem, endpointItem, middlewareFnItem, routerImpl n,
      .function <$> routesFunction d n, .function <$> middlewaresFunction d n,
      pure (.function toggleFunction), .function <$> redirectFunction], x.lent = [] := by
  have hmethods (ms : List Method) : (methodFilterExpr ms).lent = [] := by
    cases ms <;> simp [methodFilterExpr]
  simp [routerItem, endpointItem, middlewareFnItem, routerImpl, newFunction, intoRouterFunction,
    routesFunction, endpointExpr, hmethods, capabilityMethod, registerEndpoint, registerHandler,
    registerRedirect, middlewaresFunction, applyMiddleware, redirectFunction, serviceGeneric,
    sharedService, importedHandlerTy]

theorem mem_reserved_iff {f : File} (hf : f ∈ sourceFiles d) (name : String) :
    name ∈ f.imports.reserved ↔ name ∈ f.declaredNames := by
  simp only [sourceFiles, List.mem_cons, List.not_mem_nil, or_false] at hf
  rcases hf with rfl | rfl | rfl | rfl
  · rw [declaredNames_stub, stub, File.ofNoted, mem_reserved_ofLists]
    simp [or_comm]
  · rw [declaredNames_contract]
    exact mem_reserved_ofLists _ _ name
  · rw [declaredNames_bootstrap]
    exact mem_reserved_ofLists _ _ name
  · rw [declaredNames_entrypoint]
    exact mem_reserved_ofLists _ _ name

/-- A file imports the symbols that its items speak of and reserves the names of its items. Only the
stub imports more, for their methods alone: one trait if there is a route and one if there is a
middleware. -/
theorem imports_are_exact (d : Descriptor) :
    (∀ s, s ∈ (stub d).imports.symbols ↔ (stub d).SpeaksOf s ∨ s ∈ lentSymbols d) ∧
    (∀ s ∈ lentSymbols d, ¬ (stub d).SpeaksOf s) ∧
    (∀ f ∈ [contract d, bootstrap d, entrypoint d],
      ∀ s, s ∈ f.imports.symbols ↔ f.SpeaksOf s) ∧
    ∀ f ∈ sourceFiles d, ∀ name, name ∈ f.imports.reserved ↔ name ∈ f.declaredNames := by
  refine ⟨fun s => mem_symbols_stub_iff, fun s hs => not_speaksOf_of_mem_lentSymbols hs, ?_,
    fun f hf name => mem_reserved_iff hf name⟩
  simp only [List.forall_mem_cons, List.not_mem_nil, false_implies, implies_true, and_true]
  refine ⟨fun s => ?_, fun s => ?_, fun s => ?_⟩
  · exact File.mem_symbols_iff_speaksOf _ _ (exact_contract d _) (by simp [requestHandlerItem]) s
  · exact File.mem_symbols_iff_speaksOf _ _ (exact_bootstrap d _) (lent_bootstrap d _) s
  · exact File.mem_symbols_iff_speaksOf _ _ (exact_entrypoint _) (by simp [mainFunction]) s

end Service

end Scaffold
