import Scaffold.Proofs.Execution

/-!
The router that a generated bootstrap builds, read off the tree of its function for the routes: what
is registered there in order, and which answer a request gets. The tree is that of the endpoints of
the descriptor, so the registrations are known from the descriptor alone.
-/

namespace Scaffold

namespace Service

open Source

/-- An endpoint record, as the loop over the endpoints finds it. -/
structure EndpointRecord where
  path : String
  methods : List Method
  strictSlash : Bool
  capability : Symbol
  handler : String
  deriving DecidableEq, Repr

/-- The methods of one filter or of several joined ones. -/
def filterMethods? : Expr → Option (List Method)
  | .imported s (some name) =>
    if s = Vocabulary.methodFilter then (Method.ofName? name).map fun m => [m] else none
  | .method set "or" [.imported s (some name)] => do
    let ms ← filterMethods? set
    if s = Vocabulary.methodFilter then (Method.ofName? name).map fun m => ms ++ [m] else none
  | _ => none

def methods? : Expr → Option (List Method)
  | .path "None" => some []
  | .call (.path "Some") [set] => filterMethods? set
  | _ => none

/-- The method of a capability that is asked for the handler. -/
def handler? : Expr → Option (Symbol × String)
  | .call (.traitItem (.named "S" []) (.imported capability []) item) [.path "service"] =>
    some (capability, item)
  | _ => none

def record? : Expr → Option EndpointRecord
  | .record (.named "Endpoint" [])
      [("path", .text path), ("methods", methods), ("strict_slash", .bool strictSlash),
       ("handler", handler)] => do
    let methods ← methods? methods
    let (capability, handler) ← handler? handler
    some { path, methods, strictSlash, capability, handler }
  | _ => none

/-- The endpoint records that a function lists first of all. -/
def records? (f : Function) : Option (List EndpointRecord) :=
  match f.body with
  | .bind "endpoints" false _ (.invoke "vec" items) :: _ => items.mapM record?
  | _ => none

/-- The endpoint records of a file, from its function for the routes. -/
def fileRecords? (f : File) : Option (List EndpointRecord) := do
  records? (← f.items.findSome? (namedFunction? "routes"))

end Service

namespace Registration

/-- The two cannot both be registered: the router ends with a panic as it starts. -/
def Clashes (x y : Registration) : Prop := x.path = y.path ∧ MethodsMeet x.methods y.methods

instance (x y : Registration) : Decidable (x.Clashes y) := inferInstanceAs (Decidable (_ ∧ _))

end Registration

/-- The answer of the first registration of a kind. -/
def answerOf? (registrations : List Registration) (kind : Registration → Prop)
    [DecidablePred kind] :
    Option Answer :=
  (registrations.find? fun x => decide (kind x)).map (·.answer)

/-- The answer to a request: from the registration on the path that lists the method, else from one
that lists none. -/
def dispatch (registrations : List Registration) (path : String) (m : Method) : Option Answer :=
  match answerOf? registrations fun x => x.path = path ∧ m ∈ x.methods with
  | some a => some a
  | none => answerOf? registrations fun x => x.path = path ∧ x.methods = []

namespace Descriptor

/-- What the generated bootstrap of a descriptor registers, in order. -/
def registrations? (d : Descriptor) : Option (List Registration) :=
  Service.fileRegistrations? (Service.bootstrap d)

end Descriptor

namespace Service

open Source

theorem filterMethods?_foldl (ms : List Method) (set : Expr) (before : List Method)
    (h : filterMethods? set = some before) :
    filterMethods?
        (ms.foldl (fun set m => .method set "or" [.ofMember Vocabulary.methodFilter m.name]) set) =
      some (before ++ ms) := by
  induction ms generalizing set before with
  | nil => simpa using h
  | cons m ms ih =>
    have hnext : filterMethods? (.method set "or" [.ofMember Vocabulary.methodFilter m.name]) =
        some (before ++ [m]) := by
      simp [filterMethods?, Expr.ofMember, h, Method.ofName?_name]
    simpa using ih _ _ hnext

/-- The filter expression of a method list denotes just that list. -/
theorem methods?_methodFilterExpr (ms : List Method) :
    methods? (methodFilterExpr ms).value = some ms := by
  cases ms with
  | nil => rfl
  | cons m ms =>
    have hfirst : filterMethods? (.ofMember Vocabulary.methodFilter m.name) = some [m] := by
      simp [filterMethods?, Expr.ofMember, Method.ofName?_name]
    rw [value_methodFilterExpr_cons]
    exact filterMethods?_foldl ms _ [m] hfirst

/-- The record of an endpoint. -/
def recordOf (n : Names) (e : Endpoint) : EndpointRecord :=
  { path := e.route.path
    methods := e.route.methods
    strictSlash := e.redirects
    capability := contractItem n.handler
    handler := Naming.methodName e.route.handler }

theorem record?_endpointExpr (n : Names) (e : Endpoint) :
    record? (endpointExpr n e).value = some (recordOf n e) := by
  have hmethods := methods?_methodFilterExpr e.route.methods
  simp [record?, endpointExpr, Ty.plain, hmethods, handler?, capabilityMethod, recordOf]

theorem records?_routesFunction (d : Descriptor) (n : Names) :
    records? (routesFunction d n).value = some (d.endpoints.map (recordOf n)) := by
  have hitems : (d.endpoints.map fun e => (endpointExpr n e).value).mapM record? =
      some (d.endpoints.map (recordOf n)) := by
    induction d.endpoints with
    | nil => rfl
    | cons e es ih => simp [record?_endpointExpr, ih]
  exact hitems

/-- The bootstrap lists the endpoints of the descriptor and nothing else. -/
theorem fileRecords?_bootstrap (d : Descriptor) :
    fileRecords? (bootstrap d) = some (d.endpoints.map (recordOf (.ofProject d.info.name))) :=
  records?_routesFunction d _

end Service

namespace Endpoint

/-- The method of the handler trait that answers for the endpoint. -/
def answer (d : Descriptor) (e : Endpoint) : Answer :=
  .handler (Service.contractItem (Service.Names.ofProject d.info.name).handler)
    (Naming.methodName e.route.handler)

/-- What is registered on the path of the endpoint. -/
def own (d : Descriptor) (e : Endpoint) : Registration :=
  { path := e.route.path, methods := e.route.methods, answer := e.answer d }

/-- What is registered on the toggled path, if the endpoint redirects. -/
def redirection (e : Endpoint) : Registration :=
  { path := toggleTrailingSlash e.route.path, methods := e.route.methods, answer := .redirect }

/-- The registrations of one endpoint. -/
def registrations (d : Descriptor) (e : Endpoint) : List Registration :=
  e.own d :: if e.redirects then [e.redirection] else []

theorem mem_registrations_iff (d : Descriptor) (e : Endpoint) (x : Registration) :
    x ∈ e.registrations d ↔ x = e.own d ∨ (e.redirects = true ∧ x = e.redirection) := by
  cases h : e.redirects <;> simp [registrations, h]

end Endpoint

namespace Descriptor

theorem wantsRedirect_of_redirects {d : Descriptor} {e : Endpoint} (he : e ∈ d.endpoints)
    (hredirects : e.redirects = true) : e.route.wantsRedirect = true := by
  have h := ((mem_endpoints_iff d e).mp he).2
  rw [hredirects, eq_comm, Bool.and_eq_true] at h
  exact h.1

/-- The registrations from the endpoints alone. -/
def registrations (d : Descriptor) : List Registration :=
  d.endpoints.flatMap (Endpoint.registrations d)

theorem mem_registrations_iff (d : Descriptor) (x : Registration) :
    x ∈ d.registrations ↔
      ∃ e ∈ d.endpoints, x = e.own d ∨ (e.redirects = true ∧ x = e.redirection) := by
  simp only [registrations, List.mem_flatMap, Endpoint.mem_registrations_iff]

end Descriptor

end Scaffold
