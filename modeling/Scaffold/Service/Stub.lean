import Scaffold.Service.Capability

/-!
The service stub, which is the root of the crate: a type with both capabilities. Each handler
answers that it is not implemented, and each middleware hands the request on.
-/

namespace Scaffold.Service

open Source Vocabulary

/-- A closure, wrapped into a handler. -/
def boxedHandler (closure : Expr) : Noted Stmt := do
  return .result (.call (← boxedService.member "new") [.call (← serviceFn.expr) [closure]])

/-- Answers every request that the handler is not implemented. -/
def unimplementedHandler : Noted Expr := do
  intoResponse.lend
  return .closure true [{ name := "_request", ty := ← request.ty }]
    (.async true
      [.result (.call (.turbofish (.path "Ok") [.infer, ← infallible.ty])
        [.method (.tuple [← statusCode.member "NOT_IMPLEMENTED", .path "message"])
          "into_response" []])])

def routeStub (r : Route) (w : Wiring) : Noted Function := do
  return {
    signature := routeSignature (← importedHandlerTy) r w
    body :=
      Stmt.comments
        ["Anything you add here runs once, while the router is being built.",
         "The returned handler can use these values by moving them into its",
         "closure."] ++
      [.blank, .define "message" (.text (r.handler ++ " is not implemented yet")),
       ← boxedHandler (← unimplementedHandler)] }

/-- Hands every request to a copy of the next handler. -/
def forwardingHandler : Noted Expr := do
  serviceExt.lend
  return .closure true [{ name := "request", ty := ← request.ty }]
    (.block
      [.define "next" (.method (.path "next") "clone" []),
       .result (.async true
        [.result (.await (.method (.path "next") "oneshot" [.path "request"]))])])

def middlewareStub (m : Middleware) : Noted Function := do
  return {
    signature := middlewareSignature (← importedHandlerTy) m
    body :=
      Stmt.comments
        ["Anything you add here runs once, while the router is being built.",
         "Code placed before `oneshot` sees the request on its way in; code",
         "after the `.await` sees the response on its way out."] ++
      [.blank, ← boxedHandler (← forwardingHandler)] }

/-- The server has the capability, by the given methods. -/
def capabilityImpl (capability : String) (methods : Noted (List Function)) : Noted Item := do
  return .impl [] [] (some (← (contractItem capability).ty)) (.plain serverType) (← methods)

/-- The modules of the crate that are generated anew each time. -/
def generatedModules : Item :=
  .submodule [] true "gen"
    (some [.submodule [] true "bootstrap" none, .submodule [] true "interface" none])

def serverItem (n : Names) : Item :=
  .struct
    [serverType ++ " is the concrete implementation of [`gen::interface::" ++ n.service ++ "`].",
     "",
     "It provides the handler capability through one method per route and",
     "the middleware capability through one method per middleware."]
    [.derive ["Debug", "Clone", "Copy", "Default"]] true serverType [] none

def stub (d : Descriptor) : File :=
  let n := Names.ofProject d.info.name
  .ofNoted (d.info.documentation n.project) [serverType, "gen"]
    [pure generatedModules, pure (serverItem n),
     capabilityImpl n.handler (.each (fun p => routeStub p.1 p.2) d.wirings),
     capabilityImpl n.middleware (.each middlewareStub d.middlewares)]

end Scaffold.Service
