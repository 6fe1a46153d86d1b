import Scaffold.Descriptor.Basic
import Scaffold.Naming.Identifier
import Scaffold.Sequence.Repeat

/-!
A descriptor grows by one route or middleware at a time. An entry is refused when it is malformed or
conflicts with one already there; handler names conflict when they generate the same method.
-/

namespace Scaffold

inductive Rejection where
  | duplicateHandler (existing : String)
  | duplicateRouteMethod (path : String) (method : Method)
  | invalidPath (path : String)
  | repeatedMethod (path : String) (method : Method)
  | invalidHandlerName (name : String)
  deriving DecidableEq, Repr

namespace Rejection

def message : Rejection → String
  | duplicateHandler existing => "handler with the same name already exists: " ++ existing
  | duplicateRouteMethod path method =>
    "route with path " ++ Text.quoted path ++ " and method " ++ method.name ++ " already used"
  | invalidPath path => "route path " ++ Text.quoted path ++ " must begin with '/'"
  | repeatedMethod path method =>
    "route with path " ++ Text.quoted path ++ " lists method " ++ method.name ++ " more than once"
  | invalidHandlerName name =>
    "handler name " ++ Text.quoted name ++ " is not a valid identifier"

end Rejection

def handlerDefect? (name : String) : Option Rejection :=
  if Naming.isWord name.toList then none else some (.invalidHandlerName name)

namespace Route

/-- What is wrong with the route by itself: its path, then its methods, then its handler. -/
def defect? (r : Route) : Option Rejection :=
  if r.path.toList.head? ≠ some '/' then some (.invalidPath r.path)
  else
    match firstRepeat? r.methods with
    | some m => some (.repeatedMethod r.path m)
    | none => handlerDefect? r.handler

/-- Why the route cannot join a descriptor that holds `existing`. -/
def conflict? (r existing : Route) : Option Rejection :=
  if Naming.methodName existing.handler = Naming.methodName r.handler then
    some (.duplicateHandler existing.handler)
  else if existing.path = r.path then
    (r.methods.find? existing.accepts).map (.duplicateRouteMethod existing.path)
  else none

end Route

namespace Middleware

def defect? (m : Middleware) : Option Rejection := handlerDefect? m.handler

def conflict? (m existing : Middleware) : Option Rejection :=
  if Naming.methodName existing.handler = Naming.methodName m.handler then
    some (.duplicateHandler existing.handler)
  else none

end Middleware

namespace Descriptor

/-- Appends a route, or tells why not; the earliest stored route in conflict is blamed. -/
def addRoute (d : Descriptor) (r : Route) : Except Rejection Descriptor :=
  match r.defect? <|> d.routes.findSome? r.conflict? with
  | some e => .error e
  | none => .ok { d with routes := d.routes ++ [r] }

theorem orElse_findSome?_eq_none_iff {α β : Type} (defect : Option β) (conflict : α → Option β)
    (xs : List α) :
    (defect <|> xs.findSome? conflict) = none ↔
      defect = none ∧ ∀ x ∈ xs, conflict x = none := by
  cases defect <;> simp

/-- A route is added exactly if nothing is wrong with it and nothing stored conflicts with it. -/
theorem addRoute_eq_ok_iff (d d' : Descriptor) (r : Route) :
    d.addRoute r = .ok d' ↔
      (r.defect? = none ∧ ∀ e ∈ d.routes, r.conflict? e = none) ∧
        d' = { d with routes := d.routes ++ [r] } := by
  rw [← orElse_findSome?_eq_none_iff]
  unfold addRoute
  cases r.defect? <|> d.routes.findSome? r.conflict? <;> simp [eq_comm]

def addMiddleware (d : Descriptor) (m : Middleware) : Except Rejection Descriptor :=
  match m.defect? <|> d.middlewares.findSome? m.conflict? with
  | some e => .error e
  | none => .ok { d with middlewares := d.middlewares ++ [m] }

theorem addMiddleware_eq_ok_iff (d d' : Descriptor) (m : Middleware) :
    d.addMiddleware m = .ok d' ↔
      (m.defect? = none ∧ ∀ e ∈ d.middlewares, m.conflict? e = none) ∧
        d' = { d with middlewares := d.middlewares ++ [m] } := by
  rw [← orElse_findSome?_eq_none_iff]
  unfold addMiddleware
  cases m.defect? <|> d.middlewares.findSome? m.conflict? <;> simp [eq_comm]

/-- Adds all routes and then all middlewares, each in order, up to the first refusal. -/
def addAll (d : Descriptor) (routes : List Route) (middlewares : List Middleware) :
    Except Rejection Descriptor := do
  let d ← routes.foldlM addRoute d
  middlewares.foldlM addMiddleware d

end Descriptor

end Scaffold
