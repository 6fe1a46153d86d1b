import Scaffold.Naming.Identifier

/-!
The names of a generated service: those that its project decides and those that all services share.
-/

namespace Scaffold.Service

/-- The names that the project decides. -/
structure Names where
  project : String
  crate : String
  /-- The trait that joins the two capabilities. -/
  service : String
  /-- The trait with one method for each route. -/
  handler : String
  /-- The trait with one method for each middleware. -/
  middleware : String
  deriving DecidableEq, Repr

namespace Names

def ofProject (project : String) : Names :=
  let title := Naming.titleCase project
  { project
    crate := Naming.crateIdent project
    service := title ++ "Service"
    handler := title ++ "Handler"
    middleware := title ++ "Middleware" }

end Names

/-- The concrete type that the stub declares. -/
def serverType : String := "Server"

/-- The wrapper of the router that the bootstrap declares. -/
def routerType : String := "Service"

/-- The handler type that the contract declares. -/
def requestHandler : String := "RequestHandler"

/-- Where a generated service listens. -/
def defaultAddress : String := "0.0.0.0:8080"

def contractModule : String := "crate::gen::interface"

end Scaffold.Service
