import Scaffold.Service.Documentation
import Scaffold.Service.Vocabulary
import Scaffold.Source.Noted

/-!
The methods of the two capabilities of a service. The contract demands them and the stub has them,
so one signature serves both; only the handler type is spoken differently.
-/

namespace Scaffold.Service

open Source

/-- The handler type as the contract itself speaks it. -/
def declaredHandlerTy : Ty := .plain requestHandler

/-- The handler type as all other files speak it. -/
def importedHandlerTy : Noted Ty := (contractItem requestHandler).ty

/-- The method that returns the handler of a route. -/
def routeSignature (handlerTy : Ty) (r : Route) (w : Wiring) : Signature :=
  { doc := r.documentation w
    name := Naming.methodName r.handler
    receiver := some .byRef
    result := some handlerTy }

/-- The method that wraps a middleware around the handler next in line. -/
def middlewareSignature (handlerTy : Ty) (m : Middleware) : Signature :=
  { doc := m.documentation
    name := Naming.methodName m.handler
    receiver := some .byRef
    params := [{ name := "next", ty := handlerTy }]
    result := some handlerTy }

end Scaffold.Service
