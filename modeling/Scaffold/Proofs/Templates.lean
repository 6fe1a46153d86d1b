import Scaffold.Proofs.Requirements
import Scaffold.Service.Bootstrap
import Scaffold.Service.Entrypoint
import Scaffold.Service.Stub

/-!
What each template of a service requires: that some symbols are registered and that the names put
into it are identifiers. All other words of the templates are identifiers by themselves.
-/

namespace Scaffold.Service

open Source Vocabulary
open Naming (isIdentifier isPath methodName)

/-- The types and variants that are spoken without an import. -/
@[simp] theorem isIdentifier_types :
    isIdentifier "S" ∧ isIdentifier "T" ∧ isIdentifier "Endpoint" ∧ isIdentifier "MiddlewareFn" ∧
    isIdentifier requestHandler ∧ isIdentifier serverType ∧ isIdentifier routerType ∧
    isIdentifier "Send" ∧ isIdentifier "Sync" ∧ isIdentifier "Debug" ∧ isIdentifier "Clone" ∧
    isIdentifier "Copy" ∧ isIdentifier "Default" ∧ isIdentifier "Option" ∧ isIdentifier "Some" ∧
    isIdentifier "None" ∧ isIdentifier "Ok" ∧ isIdentifier "Vec" ∧ isIdentifier "String" ∧
    isIdentifier "str" ∧ isIdentifier "bool" := by
  decide

/-- The modules, functions, parameters and fields that the templates declare. -/
@[simp] theorem isIdentifier_declared :
    isIdentifier "gen" ∧ isIdentifier "bootstrap" ∧ isIdentifier "interface" ∧
    isIdentifier "main" ∧ isIdentifier addressName ∧ isIdentifier "routes" ∧
    isIdentifier "middlewares" ∧ isIdentifier "toggle_trailing_slash" ∧
    isIdentifier "redirect_to_canonical" ∧ isIdentifier "new" ∧ isIdentifier "service_impl" ∧
    isIdentifier "into_router" ∧ isIdentifier "router" ∧ isIdentifier "service" ∧
    isIdentifier "_service" ∧ isIdentifier "path" ∧ isIdentifier "methods" ∧
    isIdentifier "strict_slash" ∧ isIdentifier "handler" ∧ isIdentifier "endpoint" ∧
    isIdentifier "endpoints" ∧ isIdentifier "route" ∧ isIdentifier "redirect" ∧
    isIdentifier "mw" ∧ isIdentifier "mws" ∧ isIdentifier "inner" ∧ isIdentifier "uri" ∧
    isIdentifier "query" ∧ isIdentifier "next" ∧ isIdentifier "request" ∧
    isIdentifier "_request" ∧ isIdentifier "message" ∧ isIdentifier "listener" := by
  decide

/-- The members and macros of other modules that the templates use. -/
@[simp] theorem isIdentifier_members :
    isIdentifier "as_ref" ∧ isIdentifier "or" ∧ isIdentifier "into_iter" ∧ isIdentifier "rev" ∧
    isIdentifier "layer" ∧ isIdentifier "clone" ∧ isIdentifier "strip_suffix" ∧
    isIdentifier "map_or_else" ∧ isIdentifier "format" ∧ isIdentifier "permanent" ∧
    isIdentifier "oneshot" ∧ isIdentifier "into_response" ∧ isIdentifier "NOT_IMPLEMENTED" ∧
    isIdentifier "default" ∧ isIdentifier "bind" := by
  decide

/-- The words that are paths without being identifiers. -/
@[simp] theorem isPath_words :
    isPath "self" ∧ isPath "Self" ∧ isPath "str::to_string" ∧ isPath "tokio::main" ∧
    isPath "std::io::Result" ∧ isPath contractModule := by
  decide

@[simp] theorem isIdentifier_method (m : Method) : isIdentifier m.name := by
  have hall : ∀ m ∈ Method.all, isIdentifier m.name := by decide
  exact hall m (Method.mem_all m)

@[simp] theorem importable_contractItem {name : String} (h : isIdentifier name = true) :
    (contractItem name).Importable :=
  ⟨isPath_words.2.2.2.2.2, h⟩

/-- The vocabulary can be imported. -/
@[simp] theorem importable_vocabulary :
    router.Importable ∧ serve.Importable ∧ request.Importable ∧ statusCode.Importable ∧
    uri.Importable ∧ response.Importable ∧ intoResponse.Importable ∧ redirect.Importable ∧
    methodFilter.Importable ∧ routeService.Importable ∧ on.Importable ∧ onService.Importable ∧
    any.Importable ∧ anyService.Importable ∧ infallible.Importable ∧ arc.Importable ∧
    tcpListener.Importable ∧ serviceFn.Importable ∧ serviceExt.Importable ∧ layerFn.Importable ∧
    boxedService.Importable := by
  decide

/-- All names that the project decides are identifiers. -/
structure Names.Legal (n : Names) : Prop where
  crate : isIdentifier n.crate = true
  service : isIdentifier n.service = true
  handler : isIdentifier n.handler = true
  middleware : isIdentifier n.middleware = true

theorem Names.legal_ofProject {project : String} (h : Naming.isProjectName project = true) :
    (Names.ofProject project).Legal := by
  have hname := (Naming.isProjectName_iff project).mp h
  exact {
    crate := Naming.isIdentifier_crateIdent hname
    service := Naming.isIdentifier_title_append hname (by simp)
    handler := Naming.isIdentifier_title_append hname (by simp)
    middleware := Naming.isIdentifier_title_append hname (by simp)
  }

variable {n : Names} {d : Descriptor}

theorem sound_generatedModules : (pure generatedModules : Noted Item).Sound Item.requirements where
  importable := by simp
  met := by simp [generatedModules]

theorem sound_serverItem : (pure (serverItem n) : Noted Item).Sound Item.requirements where
  importable := by simp
  met := by simp [serverItem]

theorem sound_routeStub {r : Route} (w : Wiring)
    (hname : isIdentifier (methodName r.handler) = true) :
    (routeStub r w).Sound Function.requirements where
  importable := by simp [routeStub, importedHandlerTy, boxedHandler, unimplementedHandler]
  met imports speak h := by
    simp [routeStub, importedHandlerTy, boxedHandler, unimplementedHandler] at h
    simp [routeStub, routeSignature, Function.requirements, Signature.requirements,
      importedHandlerTy, boxedHandler, unimplementedHandler, h, hname]

theorem sound_middlewareStub {m : Middleware} (hname : isIdentifier (methodName m.handler) = true) :
    (middlewareStub m).Sound Function.requirements where
  importable := by simp [middlewareStub, importedHandlerTy, boxedHandler, forwardingHandler]
  met imports speak h := by
    simp [middlewareStub, importedHandlerTy, boxedHandler, forwardingHandler] at h
    simp [middlewareStub, middlewareSignature, Function.requirements, Signature.requirements,
      importedHandlerTy, boxedHandler, forwardingHandler, h, hname]

/-- The stub of a capability is sound if its methods have names of their own and are sound. -/
theorem sound_capabilityImpl {α : Type} {capability : String} {f : α → Noted Function} {xs : List α}
    (hcapability : isIdentifier capability = true)
    (hnames : (xs.map fun x => (f x).value.signature.name).Nodup)
    (hmethods : ∀ x ∈ xs, (f x).Sound Function.requirements) :
    (capabilityImpl capability (.each f xs)).Sound Item.requirements where
  importable := by
    simp [capabilityImpl, hcapability]
    exact fun x hx => (hmethods x hx).importable
  met imports speak h := by
    simp [capabilityImpl] at h
    simp [capabilityImpl, h.1, Function.comp_def, hnames]
    exact fun x hx => (hmethods x hx).met imports speak (h.2 x hx)

theorem sound_requestHandlerItem : requestHandlerItem.Sound Item.requirements where
  importable := by simp [requestHandlerItem]
  met imports speak h := by
    simp [requestHandlerItem] at h
    simp [requestHandlerItem, h]

theorem sound_serviceTrait (hn : n.Legal) :
    (pure (serviceTrait n) : Noted Item).Sound Item.requirements where
  importable := by simp
  met := by simp [serviceTrait, capabilities, hn.service, hn.handler, hn.middleware]

theorem sound_serviceImpl (hn : n.Legal) :
    (pure (serviceImpl n) : Noted Item).Sound Item.requirements where
  importable := by simp
  met := by simp [serviceImpl, capabilities, hn.service, hn.handler, hn.middleware]

theorem met_routeSignature (imports : Imports) {r : Route} (w : Wiring)
    (hname : isIdentifier (methodName r.handler) = true) :
    Met imports (routeSignature declaredHandlerTy r w).requirements := by
  simp [routeSignature, Signature.requirements, declaredHandlerTy, hname]

theorem met_middlewareSignature (imports : Imports) {m : Middleware}
    (hname : isIdentifier (methodName m.handler) = true) :
    Met imports (middlewareSignature declaredHandlerTy m).requirements := by
  simp [middlewareSignature, Signature.requirements, declaredHandlerTy, hname]

/-- The trait of a capability is sound if its methods have names of their own and are met. -/
theorem sound_capabilityTrait {doc : List String} {name : String} {methods : List Signature}
    (hname : isIdentifier name = true) (hnames : (methods.map (·.name)).Nodup)
    (hmethods : ∀ s ∈ methods, ∀ imports, Met imports s.requirements) :
    (pure (.trait doc true name threadSafe methods) : Noted Item).Sound Item.requirements where
  importable := by simp
  met imports _ _ := by simpa [threadSafe, hname, hnames] using fun s hs => hmethods s hs imports

theorem sound_routerItem : routerItem.Sound Item.requirements where
  importable := by simp [routerItem, sharedService]
  met imports speak h := by
    simp [routerItem, sharedService] at h
    simp [routerItem, sharedService, h]

theorem sound_endpointItem : endpointItem.Sound Item.requirements where
  importable := by simp [endpointItem, importedHandlerTy]
  met imports speak h := by
    simp [endpointItem, importedHandlerTy] at h
    simp [endpointItem, importedHandlerTy, h]

theorem sound_middlewareFnItem : middlewareFnItem.Sound Item.requirements where
  importable := by simp [middlewareFnItem, importedHandlerTy]
  met imports speak h := by
    simp [middlewareFnItem, importedHandlerTy] at h
    simp [middlewareFnItem, importedHandlerTy, h]

theorem sound_routerImpl (hn : n.Legal) : (routerImpl n).Sound Item.requirements where
  importable := by
    simp [routerImpl, serviceGeneric, newFunction, intoRouterFunction, hn.service]
  met imports speak h := by
    simp [routerImpl, serviceGeneric, newFunction, intoRouterFunction] at h
    simp [routerImpl, serviceGeneric, newFunction, serviceImplFunction, intoRouterFunction,
      Function.requirements, Signature.requirements, h]

theorem sound_methodFilterExpr (ms : List Method) :
    (methodFilterExpr ms).Sound Expr.requirements where
  importable := by cases ms <;> simp +contextual [methodFilterExpr]
  met imports speak h := by
    have hfold (hsymbol : methodFilter ∈ imports.symbols) (ms : List Method) (set : Expr)
        (hset : Met imports (set.requirements speak)) :
        Met imports ((ms.foldl (fun set m => .method set "or" [.ofMember methodFilter m.name])
          set).requirements speak) := by
      induction ms generalizing set with
      | nil => exact hset
      | cons m ms ih => exact ih _ (by simp [hset, hsymbol])
    cases ms with
    | nil => simp [methodFilterExpr]
    | cons m ms =>
      have hsymbol : methodFilter ∈ imports.symbols := h List.mem_cons_self
      have hset := hfold hsymbol ms (.ofMember methodFilter m.name) (by simp [hsymbol])
      simpa [methodFilterExpr, List.foldl_map] using hset

theorem sound_capabilityMethod {capability handler : String}
    (hcapability : isIdentifier capability = true)
    (hname : isIdentifier (methodName handler) = true) :
    (capabilityMethod capability handler).Sound Expr.requirements where
  importable := by simp [capabilityMethod, hcapability]
  met imports speak h := by
    simp [capabilityMethod] at h
    simp [capabilityMethod, h, hname]

theorem sound_endpointExpr {e : Endpoint} (hn : n.Legal)
    (hname : isIdentifier (methodName e.route.handler) = true) :
    (endpointExpr n e).Sound Expr.requirements := by
  have hmethods := sound_methodFilterExpr e.route.methods
  have hmethod := sound_capabilityMethod hn.handler hname
  constructor
  · simp [endpointExpr, hmethods.importable, hmethod.importable]
  · intro imports speak h
    simp [endpointExpr] at h
    simp [endpointExpr, hmethods.met imports speak h.1, hmethod.met imports speak h.2]

/-- The function that registers the routes is sound if every endpoint is. -/
theorem sound_routesFunction (hn : n.Legal)
    (hendpoints : ∀ e ∈ d.endpoints, (endpointExpr n e).Sound Expr.requirements) :
    (Item.function <$> routesFunction d n).Sound Item.requirements where
  importable := by
    simp [routesFunction, serviceGeneric, registerEndpoint, registerHandler, registerRedirect,
      hn.service]
    exact fun e he => (hendpoints e he).importable
  met imports speak h := by
    simp [routesFunction, serviceGeneric, registerEndpoint, registerHandler,
      registerRedirect] at h
    have hservice : isIdentifier (if d.endpoints = [] then "_service" else "service") = true := by
      split <;> simp
    obtain ⟨htrait, hrouter, hlisted, hcalls⟩ := h
    simp [routesFunction, Function.requirements, Signature.requirements, serviceGeneric,
      registerEndpoint, registerHandler, registerRedirect, byMethods, addToRouter, endpointField,
      htrait, hrouter, hcalls, hservice]
    exact fun e he => (hendpoints e he).met imports speak (hlisted e he)

/-- The function that wraps the middlewares is sound if every middleware is. -/
theorem sound_middlewaresFunction (hn : n.Legal)
    (hmiddlewares : ∀ m ∈ d.middlewaresByPriority,
      (capabilityMethod n.middleware m.handler).Sound Expr.requirements) :
    (Item.function <$> middlewaresFunction d n).Sound Item.requirements where
  importable := by
    simp [middlewaresFunction, serviceGeneric, sharedService, applyMiddleware, hn.service]
    exact fun m hm => (hmiddlewares m hm).importable
  met imports speak h := by
    simp [middlewaresFunction, serviceGeneric, sharedService, applyMiddleware] at h
    obtain ⟨htrait, hrouter, harc, -, hlisted, hcalls⟩ := h
    simp [middlewaresFunction, Function.requirements, Signature.requirements, serviceGeneric,
      sharedService, applyMiddleware, htrait, hrouter, harc, hcalls]
    exact fun m hm => (hmiddlewares m hm).met imports speak (hlisted m hm)

theorem sound_toggleFunction :
    (pure (.function toggleFunction) : Noted Item).Sound Item.requirements where
  importable := by simp
  met := by simp [toggleFunction, Function.requirements, Signature.requirements]

theorem sound_redirectFunction :
    (Item.function <$> redirectFunction).Sound Item.requirements where
  importable := by simp [redirectFunction]
  met imports speak h := by
    simp [redirectFunction] at h
    simp [redirectFunction, Function.requirements, Signature.requirements, h]

theorem sound_addressItem : (pure addressItem : Noted Item).Sound Item.requirements where
  importable := by simp
  met := by simp [addressItem]

/-- The entrypoint speaks of the crate of the project, whose name is an identifier. -/
theorem sound_mainFunction (hn : n.Legal) :
    (Item.function <$> mainFunction n).Sound Item.requirements where
  importable := by
    have hserver : (serverItemOf n).Importable :=
      ⟨Naming.isPath_of_isIdentifier hn.crate, by simp [serverItemOf]⟩
    have hrouter : (routerItemOf n).Importable := by
      have hmodule : Naming.isPath "gen::bootstrap" = true := by decide +kernel
      have hpath : Naming.isPath (n.crate ++ "::" ++ "gen::bootstrap") = true :=
        Naming.isPath_append hn.crate hmodule
      rw [String.append_assoc] at hpath
      exact ⟨hpath, by simp [routerItemOf]⟩
    simp [mainFunction, hserver, hrouter]
  met imports speak h := by
    simp [mainFunction] at h
    simp [mainFunction, Function.requirements, Signature.requirements, h]

end Scaffold.Service
