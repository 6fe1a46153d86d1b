import Scaffold.Descriptor.Basic

/-!
Which routes of a descriptor are routed and which of those redirect. Of the routes on one path that
serve every method only the first is routed. A redirect from the path with the other trailing slash
is left out where it would meet a route that is declared there.
-/

namespace Scaffold

/-- The path with a slash at its end, or without the one it has. -/
def toggleTrailingSlash (path : String) : String :=
  match path.toList.reverse with
  | '/' :: rest => String.ofList rest.reverse
  | _ => path ++ "/"

theorem length_toggleTrailingSlash_ne (path : String) :
    (toggleTrailingSlash path).length ≠ path.length := by
  unfold toggleTrailingSlash
  split
  · next rest h =>
    have hlen := congrArg List.length h
    simp only [List.length_reverse, String.length_toList, List.length_cons] at hlen
    simp only [String.length_ofList, List.length_reverse]
    omega
  · simp

theorem toggleTrailingSlash_ne (path : String) : toggleTrailingSlash path ≠ path :=
  fun h => length_toggleTrailingSlash_ne path (congrArg String.length h)

namespace Route

/-- Whether a registration of the methods cannot stand beside the route on one path: both serve
every method, or they share one. -/
def overlaps (methods : List Method) (r : Route) : Bool :=
  if methods.isEmpty then r.servesEveryMethod else methods.any r.accepts

/-- Whether a trailing slash means anything to the route. -/
def wantsRedirect (r : Route) : Bool := r.strictSlash && r.path != "/"

end Route

/-- What becomes of a route. -/
inductive Wiring where
  /-- An earlier handler serves every method on the path, so the route is not routed. -/
  | shadowed (handler : String)
  /-- The route is routed, with or without a redirect. -/
  | routed (redirects : Bool)
  deriving DecidableEq, Repr

/-- A route that is routed, and whether the path with the other trailing slash redirects to it. -/
structure Endpoint where
  route : Route
  redirects : Bool
  deriving DecidableEq, Repr

namespace Descriptor

/-- The handler of the first route on the path that serves every method. -/
def fallbackHandler? (routes : List Route) (path : String) : Option String :=
  (routes.find? fun r => r.path == path && r.servesEveryMethod).map (·.handler)

/-- The earlier handler that keeps a route from being routed. -/
def shadow? (earlier : List Route) (r : Route) : Option String :=
  if r.servesEveryMethod then fallbackHandler? earlier r.path else none

/-- Every route with its shadow, given the routes before. -/
def shadowsAfter (earlier : List Route) : List Route → List (Route × Option String)
  | [] => []
  | r :: rs => (r, shadow? earlier r) :: shadowsAfter (earlier ++ [r]) rs

/-- The routes without a shadow. -/
def routed (d : Descriptor) : List Route :=
  ((shadowsAfter [] d.routes).filter (·.2.isNone)).map (·.1)

/-- Whether a redirect to the route would overlap a route on the path it leaves from. -/
def redirectBlocked (d : Descriptor) (r : Route) : Bool :=
  d.routed.any fun other => other.path == toggleTrailingSlash r.path && other.overlaps r.methods

def wiringOf (d : Descriptor) (r : Route) : Option String → Wiring
  | some handler => .shadowed handler
  | none => .routed (r.wantsRedirect && !(d.redirectBlocked r))

/-- Every route with what becomes of it, in the order of the descriptor. -/
def wirings (d : Descriptor) : List (Route × Wiring) :=
  (shadowsAfter [] d.routes).map fun p => (p.1, d.wiringOf p.1 p.2)

def endpointOf? : Route × Wiring → Option Endpoint
  | (_, .shadowed _) => none
  | (r, .routed redirects) => some { route := r, redirects }

def endpoints (d : Descriptor) : List Endpoint := d.wirings.filterMap endpointOf?

end Descriptor

end Scaffold
