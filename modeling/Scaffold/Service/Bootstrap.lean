import Scaffold.Service.Contract

/-!
The bootstrap of a service, which builds the router. It registers the endpoints in the order of the
descriptor, with the redirects among them, and then wraps the middlewares around, the one of highest
priority outermost.
-/

namespace Scaffold.Service

open Source Vocabulary

/-- What makes a type parameter a service. -/
def serviceGeneric (n : Names) : Noted Generic := do
  return { name := "S", bounds := [← (contractItem n.service).ty] }

/-- The service, shared by all who hold it. -/
def sharedService : Noted Ty := arc.ty [.plain "S"]

def routerItem : Noted Item := do
  return .struct
    [routerType ++ " is the value exposed to serve HTTP traffic.",
     "",
     "It owns the router built from the descriptor and the service",
     "implementation its routes and middlewares were taken from."]
    [] true routerType [{ name := "S" }]
    (some
      [{ name := "router", ty := ← router.ty }, { name := "service_impl", ty := ← sharedService }])

def endpointItem : Noted Item := do
  return .struct
    ["Endpoint holds the path, the handler called when that path is hit,",
     "and the methods it serves."]
    [] false "Endpoint" []
    (some
      [{ name := "path", ty := .staticRef (.plain "str") },
       { doc := ["`None` serves every method."], name := "methods",
         ty := .named "Option" [← methodFilter.ty] },
       { name := "strict_slash", ty := .plain "bool" },
       { name := "handler", ty := ← importedHandlerTy }])

def middlewareFnItem : Noted Item := do
  let handlerTy ← importedHandlerTy
  return .typeAlias ["A middleware method of the service implementation."] false "MiddlewareFn"
    [{ name := "S" }]
    (.function [.ref (.plain "S"), handlerTy] handlerTy)

def newFunction : Noted Function := do
  return {
    signature :=
      { doc := ["New wraps `service`, registering its routes and then its middlewares."]
        isPublic := true
        name := "new"
        params := [{ name := "service", ty := .plain "S" }]
        result := some (.plain "Self") }
    body :=
      [.define "service_impl" (.call (← arc.member "new") [.path "service"]),
       .define "router"
        (.call (.path "routes")
          [.call (← router.member "new") [], .method (.path "service_impl") "as_ref" []]),
       .define "router"
        (.call (.path "middlewares") [.path "router", .ref (.path "service_impl")]),
       .blank,
       .result (.record (.plain "Self")
        [("router", .path "router"), ("service_impl", .path "service_impl")])] }

def serviceImplFunction : Function :=
  { signature :=
      { doc := ["The implementation the routes and middlewares were taken from."]
        isPublic := true
        name := "service_impl"
        receiver := some .byRef
        result := some (.ref (.plain "S")) }
    body := [.result (.method (.field (.path "self") "service_impl") "as_ref" [])] }

def intoRouterFunction : Noted Function := do
  return {
    signature :=
      { doc :=
          ["Hands over the router every request is delegated to, ready for", "`axum::serve`."]
        isPublic := true
        name := "into_router"
        receiver := some .byValue
        result := some (← router.ty) }
    body := [.result (.field (.path "self") "router")] }

def routerImpl (n : Names) : Noted Item := do
  return .impl [] [← serviceGeneric n] none (.named routerType [.plain "S"])
    [← newFunction, serviceImplFunction, ← intoRouterFunction]

/-- The set of the methods, or nothing where every method is served. -/
def methodFilterExpr : List Method → Noted Expr
  | [] => return .path "None"
  | m :: ms => do
    let first ← methodFilter.member m.name
    let others ← Noted.each (fun m : Method => methodFilter.member m.name) ms
    return .call (.path "Some") [others.foldl (fun set filter => .method set "or" [filter]) first]

theorem value_methodFilterExpr_cons (m : Method) (ms : List Method) :
    (methodFilterExpr (m :: ms)).value = .call (.path "Some")
      [ms.foldl (fun set m => .method set "or" [.ofMember methodFilter m.name])
        (.ofMember methodFilter m.name)] := by
  simp [methodFilterExpr, List.foldl_map]

/-- The method of a capability, as the service has it. -/
def capabilityMethod (capability handler : String) : Noted Expr := do
  return .traitItem (.plain "S") (← (contractItem capability).ty) (Naming.methodName handler)

def endpointExpr (n : Names) (e : Endpoint) : Noted Expr := do
  return .record (.plain "Endpoint")
    [("path", .text e.route.path),
     ("methods", ← methodFilterExpr e.route.methods),
     ("strict_slash", .bool e.redirects),
     ("handler", .call (← capabilityMethod n.handler e.route.handler) [.path "service"])]

def endpointField (name : String) : Expr := .field (.path "endpoint") name

/-- One result if the endpoint lists methods, and another if it serves all. -/
def byMethods (listed all : Expr) : Expr :=
  .choose (endpointField "methods")
    [{ variant := "Some", binding := some "methods", body := listed },
     { variant := "None", body := all }]

/-- Registers a service at a path. -/
def addToRouter (path service : Expr) : Stmt :=
  .assign (.path "router") (.method (.path "router") "route" [path, service])

/-- Registers the handler of an endpoint at its path. -/
def registerHandler : Noted Block := do
  return [
    .define "route"
      (byMethods (.call (← onService.expr) [.path "methods", endpointField "handler"])
        (.call (← anyService.expr) [endpointField "handler"])),
    addToRouter (endpointField "path") (.path "route")]

/-- Registers the redirect of an endpoint at the path with the other trailing slash. -/
def registerRedirect : Noted Block := do
  return [
    .define "redirect"
      (byMethods (.call (← on.expr) [.path "methods", .path "redirect_to_canonical"])
        (.call (← any.expr) [.path "redirect_to_canonical"])),
    addToRouter (.ref (.call (.path "toggle_trailing_slash") [endpointField "path"]))
      (.path "redirect")]

/-- What the bootstrap does with one endpoint. -/
def registerEndpoint : Noted Block := do
  let wantsRedirect : Expr :=
    .binary (endpointField "strict_slash") .and (.binary (endpointField "path") .ne (.text "/"))
  return (← registerHandler) ++ [.guarded wantsRedirect (← registerRedirect)]

def routesFunction (d : Descriptor) (n : Names) : Noted Function := do
  return {
    signature :=
      { doc :=
          ["routes registers every route, in descriptor order. A route listing",
           "no methods becomes the fallback for the methods its path leaves free."]
        name := "routes"
        generics := [← serviceGeneric n]
        params :=
          [{ name := "router", ty := ← router.ty, isMutable := true },
           { name := if d.endpoints.isEmpty then "_service" else "service",
             ty := .ref (.plain "S") }]
        result := some (← router.ty) }
    body :=
      [.bind "endpoints" false (some (.named "Vec" [.plain "Endpoint"]))
        (.invoke "vec" (← Noted.each (endpointExpr n) d.endpoints)),
       .blank,
       .loop "endpoint" (.path "endpoints") (← registerEndpoint),
       .blank,
       .result (.path "router")] }

/-- Wraps one middleware around what the router holds. -/
def applyMiddleware : Noted Block := do
  return [
    .define "service" (.call (← arc.member "clone") [.path "service"]),
    .assign (.path "router")
      (.method (.path "router") "layer"
        [.call (← layerFn.expr)
          [.closure true [{ name := "inner", ty := ← routeService.ty }]
            (.call (.path "mw")
              [.ref (.path "service"), .call (← boxedService.member "new") [.path "inner"]])]])]

def middlewaresFunction (d : Descriptor) (n : Names) : Noted Function := do
  return {
    signature :=
      { doc := ["middlewares wraps the router in every middleware, highest priority first."]
        name := "middlewares"
        generics := [← serviceGeneric n]
        params :=
          [{ name := "router", ty := ← router.ty, isMutable := true },
           { name := "service", ty := .ref (← sharedService) }]
        result := some (← router.ty) }
    body :=
      [.bind "mws" false (some (.named "Vec" [.named "MiddlewareFn" [.plain "S"]]))
        (.invoke "vec"
          (← Noted.each (fun m => capabilityMethod n.middleware m.handler)
            d.middlewaresByPriority)),
       .blank] ++
      Stmt.comments
        ["A layer wraps everything added before it, so the list is applied in",
         "reverse to make its first entry the outermost one."] ++
      [.loop "mw" (.method (.method (.path "mws") "into_iter" []) "rev" [])
        (← applyMiddleware),
       .blank,
       .result (.path "router")] }

def toggleFunction : Function :=
  { signature :=
      { doc := ["Adds a trailing slash to `path`, or removes the one it has."]
        name := "toggle_trailing_slash"
        params := [{ name := "path", ty := .ref (.plain "str") }]
        result := some (.plain "String") }
    body :=
      [.result
        (.method (.method (.path "path") "strip_suffix" [.char '/']) "map_or_else"
          [.closure false [] (.invoke "format" [.text "\x7bpath\x7d/"]),
           .path "str::to_string"])] }

def redirectFunction : Noted Function := do
  let permanent ← redirect.member "permanent"
  return {
    signature :=
      { doc :=
          ["Answers the trailing-slash variant of a strict-slash route with a",
           "permanent redirect to the registered path, keeping the query."]
        isAsync := true
        name := "redirect_to_canonical"
        params := [{ name := "uri", ty := ← uri.ty }]
        result := some (← redirect.ty) }
    body :=
      [.define "path"
        (.call (.path "toggle_trailing_slash") [.method (.path "uri") "path" []]),
       .result (.choose (.method (.path "uri") "query" [])
        [{ variant := "Some", binding := some "query",
           body := .call permanent
            [.ref (.invoke "format" [.text "\x7bpath\x7d?\x7bquery\x7d"])] },
         { variant := "None", body := .call permanent [.ref (.path "path")] }])] }

def bootstrap (d : Descriptor) : File :=
  let n := Names.ofProject d.info.name
  .ofNoted (regeneratedDoc "Router bootstrap" n)
    [routerType, "Endpoint", "MiddlewareFn", "routes", "middlewares", "toggle_trailing_slash",
     "redirect_to_canonical"]
    [routerItem, endpointItem, middlewareFnItem, routerImpl n, .function <$> routesFunction d n,
     .function <$> middlewaresFunction d n, pure (.function toggleFunction),
     .function <$> redirectFunction]

end Scaffold.Service
