import Scaffold.Service.Capability

/-!
The contract of a service: the handler type, the trait of each capability, and the trait that joins
them.
-/

namespace Scaffold.Service

open Source Vocabulary

/-- The documentation of a file that is generated anew each time. -/
def regeneratedDoc (what : String) (n : Names) : List String :=
  [what ++ " of " ++ codeSpan n.project ++ ".",
   "",
   "Regenerated from the descriptor on every run; change the descriptor, not",
   "this file."]

def requestHandlerItem : Noted Item := do
  return .typeAlias
    ["A type-erased, cloneable request handler.",
     "",
     "Route handlers return one; middlewares take the next handler of the",
     "chain and return the handler wrapping it."]
    true requestHandler []
    (← boxedService.ty [← request.ty, ← response.ty, ← infallible.ty])

/-- Both capabilities, as bounds. -/
def capabilities (n : Names) : List Ty := [.plain n.handler, .plain n.middleware]

def serviceTrait (n : Names) : Item :=
  .trait
    [n.service ++ " encapsulates the handler capability, which holds all the methods",
     "called by the router, and the middleware capability, which holds all",
     "the middlewares wrapped around it."]
    true n.service (capabilities n) []

/-- Whatever has both capabilities is a service. -/
def serviceImpl (n : Names) : Item :=
  .impl [] [{ name := "T", bounds := capabilities n }] (some (.plain n.service)) (.plain "T") []

def threadSafe : List Ty := [.plain "Send", .plain "Sync", .static]

def handlerTrait (d : Descriptor) (n : Names) : Item :=
  .trait
    [n.handler ++ " is the handler capability. Every route of the descriptor adds",
     "one method returning the handler for that route."]
    true n.handler threadSafe (d.wirings.map fun p => routeSignature declaredHandlerTy p.1 p.2)

def middlewareTrait (d : Descriptor) (n : Names) : Item :=
  .trait
    [n.middleware ++ " is the middleware capability. Every middleware of the",
     "descriptor adds one method wrapping the next handler of the chain."]
    true n.middleware threadSafe (d.middlewares.map (middlewareSignature declaredHandlerTy))

def contract (d : Descriptor) : File :=
  let n := Names.ofProject d.info.name
  .ofNoted (regeneratedDoc "Service contract" n)
    [requestHandler, n.service, n.handler, n.middleware]
    [requestHandlerItem, pure (serviceTrait n), pure (serviceImpl n), pure (handlerTrait d n),
     pure (middlewareTrait d n)]

end Scaffold.Service
