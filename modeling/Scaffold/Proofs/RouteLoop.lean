import Scaffold.Proofs.Router

/-!
The emitted functions of a bootstrap, run on the endpoints of a descriptor. Each round of the loop
over the endpoints appends to the router what that endpoint registers, so the whole loop registers
what the endpoints do in their order. A request for a redirected path is sent to the toggled path.
-/

namespace Scaffold

namespace Service

open Source Vocabulary

/-- What the methods of an endpoint come to. -/
def methodsValue : List Method → Value
  | [] => .absent
  | m :: ms => .present (.methods (m :: ms))

/-- What the record of an endpoint comes to. -/
def endpointValue (n : Names) (e : Endpoint) : Value :=
  .record
    [("path", .text e.route.path), ("methods", methodsValue e.route.methods),
     ("strict_slash", .flag e.redirects),
     ("handler", .handler (contractItem n.handler) (Naming.methodName e.route.handler))]

theorem Env.value_cons (name : String) (v : Value) (env : Env) (s : String) :
    Env.value ((name, v) :: env) s = if s ≠ "None" ∧ s = name then v else env.value s := by
  unfold Env.value
  by_cases h : s = name
  · by_cases hs : name = "None" <;> simp [h, hs]
  · simp [List.lookup_cons, beq_false_of_ne h, h]

section

variable {call? : String → List Value → Option Value} {env : Env}

theorem eval?_filter (m : Method) :
    eval? call? env (.ofMember methodFilter m.name) = some (.methods [m]) := by
  simp [Expr.ofMember, Value.imported?, Method.ofName?_name]

theorem eval?_methodFilterExpr (ms : List Method) :
    eval? call? env (methodFilterExpr ms).value = some (methodsValue ms) := by
  have hfold (ms before : List Method) (set : Expr)
      (hset : eval? call? env set = some (.methods before)) :
      eval? call? env
          (ms.foldl (fun set m => .method set "or" [.ofMember methodFilter m.name]) set) =
        some (.methods (before ++ ms)) := by
    induction ms generalizing set before with
    | nil => simpa using hset
    | cons m ms ih =>
      have hnext : eval? call? env (.method set "or" [.ofMember methodFilter m.name]) =
          some (.methods (before ++ [m])) := by
        simp [hset, eval?_filter, Value.method?]
      simpa using ih _ _ hnext
  cases ms with
  | nil => rfl
  | cons m ms =>
    rw [value_methodFilterExpr_cons, eval?, hfold ms [m] _ (eval?_filter m)]
    rfl

theorem eval?_endpointExpr (n : Names) (e : Endpoint) (hservice : env.value "service" = .service) :
    eval? call? env (endpointExpr n e).value = some (endpointValue n e) := by
  simp [endpointExpr, capabilityMethod, eval?_methodFilterExpr, endpointValue, hservice, Ty.plain]

theorem evalAll?_endpoints (n : Names) (es : List Endpoint)
    (hservice : es ≠ [] → env.value "service" = .service) :
    evalAll? call? env (es.map fun e => (endpointExpr n e).value) =
      some (es.map (endpointValue n)) := by
  cases es with
  | nil => rfl
  | cons e es =>
    have hthere := hservice nofun
    generalize e :: es = all
    induction all with
    | nil => rfl
    | cons e es ih => simp [eval?_endpointExpr n e hthere, ih]

section

variable {n : Names} {e : Endpoint} (hendpoint : env.value "endpoint" = endpointValue n e)
include hendpoint

/-- The fields of an endpoint, where the variable stands for its record. -/
theorem eval?_endpointField :
    eval? call? env (endpointField "path") = some (.text e.route.path) ∧
    eval? call? env (endpointField "methods") = some (methodsValue e.route.methods) ∧
    eval? call? env (endpointField "strict_slash") = some (.flag e.redirects) ∧
    eval? call? env (endpointField "handler") =
      some (.handler (contractItem n.handler) (Naming.methodName e.route.handler)) := by
  simp [endpointField, hendpoint, endpointValue, List.lookup_cons]

/-- One expression where the endpoint lists methods, and another where it serves all. -/
theorem eval?_byMethods {listed all : Expr} {v : Value}
    (hlisted : e.route.methods ≠ [] →
      eval? call? (("methods", .methods e.route.methods) :: env) listed = some v)
    (hall : e.route.methods = [] → eval? call? env all = some v) :
    eval? call? env (byMethods listed all) = some v := by
  have hfield : eval? call? env (endpointField "methods") = some (methodsValue e.route.methods) :=
    (eval?_endpointField hendpoint).2.1
  cases hmethods : e.route.methods with
  | nil => simp [byMethods, hfield, hmethods, methodsValue, hall hmethods]
  | cons m ms =>
    rw [hmethods] at hlisted
    simp [byMethods, hfield, hmethods, methodsValue, hlisted]

theorem eval?_handlerService :
    eval? call? env
        (byMethods (.call (.ofSymbol onService) [.path "methods", endpointField "handler"])
          (.call (.ofSymbol anyService) [endpointField "handler"])) =
      some (.serving e.route.methods
        (.handler (contractItem n.handler) (Naming.methodName e.route.handler))) := by
  refine eval?_byMethods hendpoint (fun _ => ?_) fun hall => ?_
  · have hinner : Env.value (("methods", .methods e.route.methods) :: env) "endpoint" =
        endpointValue n e := by
      simpa [Env.value_cons] using hendpoint
    simp [Expr.ofSymbol, eval?_endpointField hinner, Env.value_cons, Value.imported?]
  · simp [Expr.ofSymbol, eval?_endpointField hendpoint, Value.imported?, hall]

theorem eval?_redirectService
    (hfunction : env.value "redirect_to_canonical" = .function "redirect_to_canonical") :
    eval? call? env
        (byMethods (.call (.ofSymbol on) [.path "methods", .path "redirect_to_canonical"])
          (.call (.ofSymbol any) [.path "redirect_to_canonical"])) =
      some (.serving e.route.methods .redirect) := by
  refine eval?_byMethods hendpoint (fun _ => ?_) fun hall => ?_
  · simp [Expr.ofSymbol, Env.value_cons, Value.imported?, hfunction]
  · simp [Expr.ofSymbol, Value.imported?, hfunction, hall]

end

theorem exec?_define (name : String) (e : Expr) :
    exec? call? env (.define name e) = (eval? call? env e).map fun v => (name, v) :: env := rfl

theorem exec?_addToRouter {path service : Expr} {registrations : List Registration} {p : String}
    {ms : List Method} {a : Answer} (hrouter : env.value "router" = .router registrations)
    (hpath : eval? call? env path = some (.text p))
    (hservice : eval? call? env service = some (.serving ms a)) :
    exec? call? env (addToRouter path service) =
      Env.assign? "router" (.router (registrations ++ [{ path := p, methods := ms, answer := a }]))
        env := by
  simp [addToRouter, hrouter, hpath, hservice, Value.method?]

theorem execAll?_append (ss ts : Block) :
    execAll? call? env (ss ++ ts) =
      (execAll? call? env ss).bind fun env => execAll? call? env ts := by
  induction ss generalizing env with
  | nil => rfl
  | cons s ss ih => simp [ih, Option.bind_assoc]

end

/-- The variables of the function for the routes, as its loop finds them. -/
def routesEnv (vs : List Value) (service : String) (registrations : List Registration) : Env :=
  [("endpoints", .list vs), ("router", .router registrations), (service, .service)]

theorem leave_routesEnv (inner : Env) {vs : List Value} {service : String}
    {registrations before : List Registration} :
    (inner ++ routesEnv vs service registrations).leave (routesEnv vs service before) =
      routesEnv vs service registrations := by
  simp [Env.leave, routesEnv]

/-- What one round of the loop registers: the handler, and the redirect where the guard lets it. -/
def roundRegistrations (d : Descriptor) (e : Endpoint) : List Registration :=
  e.own d :: if e.redirects && e.route.path != "/" then [e.redirection] else []

section

variable {call? : String → List Value → Option Value} {d : Descriptor} {n : Names}
  {e : Endpoint} {vs : List Value} {service : String} {registrations : List Registration}
  (hn : n = .ofProject d.info.name)

include hn in
theorem execAll?_registerHandler :
    execAll? call? (("endpoint", endpointValue n e) :: routesEnv vs service registrations)
        registerHandler.value =
      some (("route", .serving e.route.methods (e.answer d)) :: ("endpoint", endpointValue n e) ::
        routesEnv vs service (registrations ++ [e.own d])) := by
  let env : Env := ("endpoint", endpointValue n e) :: routesEnv vs service registrations
  let inner : Env := ("route", .serving e.route.methods (e.answer d)) :: env
  have hendpoint : env.value "endpoint" = endpointValue n e := by simp [env, Env.value_cons]
  have hinner : inner.value "endpoint" = endpointValue n e := by simp [inner, env, Env.value_cons]
  have hanswer : .handler (contractItem n.handler) (Naming.methodName e.route.handler) =
      e.answer d := by
    rw [hn, Endpoint.answer]
  have hroute : eval? call? inner (.path "route") =
      some (.serving e.route.methods (e.answer d)) := by
    simp [inner, Env.value_cons]
  have hrouter : inner.value "router" = .router registrations := by
    simp [inner, env, routesEnv, Env.value_cons]
  simp only [registerHandler, Noted.value_bind, Noted.value_pure, Symbol.value_expr, execAll?,
    exec?_define]
  rw [eval?_handlerService hendpoint, hanswer, Option.map_some, Option.bind_some,
    exec?_addToRouter hrouter (eval?_endpointField hinner).1 hroute]
  simp [inner, env, routesEnv, Env.assign?, Endpoint.own]

theorem execAll?_registerRedirect (v : Value)
    (hservice : service = "service" ∨ service = "_service")
    (htoggle : ∀ p, call? "toggle_trailing_slash" [.text p] =
      some (.text (toggleTrailingSlash p))) :
    execAll? call?
        (("route", v) :: ("endpoint", endpointValue n e) :: routesEnv vs service registrations)
        registerRedirect.value =
      some (("redirect", .serving e.route.methods .redirect) :: ("route", v) ::
        ("endpoint", endpointValue n e) ::
          routesEnv vs service (registrations ++ [e.redirection])) := by
  let env : Env :=
    ("route", v) :: ("endpoint", endpointValue n e) :: routesEnv vs service registrations
  let inner : Env := ("redirect", .serving e.route.methods .redirect) :: env
  have hfunction : env.value "redirect_to_canonical" = .function "redirect_to_canonical" := by
    rcases hservice with rfl | rfl <;> simp [env, routesEnv, Env.value, List.lookup_cons]
  have hendpoint : env.value "endpoint" = endpointValue n e := by simp [env, Env.value_cons]
  have hinner : inner.value "endpoint" = endpointValue n e := by simp [inner, env, Env.value_cons]
  have hpath : eval? call? inner
      (.ref (.call (.path "toggle_trailing_slash") [endpointField "path"])) =
        some (.text (toggleTrailingSlash e.route.path)) := by
    simp [eval?_endpointField hinner, htoggle]
  have hredirect : eval? call? inner (.path "redirect") =
      some (.serving e.route.methods .redirect) := by
    simp [inner, Env.value_cons]
  have hrouter : inner.value "router" = .router registrations := by
    simp [inner, env, routesEnv, Env.value_cons]
  simp only [registerRedirect, Noted.value_bind, Noted.value_pure, Symbol.value_expr, execAll?,
    exec?_define]
  rw [eval?_redirectService hendpoint hfunction, Option.map_some, Option.bind_some,
    exec?_addToRouter hrouter hpath hredirect]
  simp [inner, env, routesEnv, Env.assign?, Endpoint.redirection]

include hn in
/-- One round of the loop. -/
theorem execAll?_registerEndpoint (hservice : service = "service" ∨ service = "_service")
    (htoggle : ∀ p, call? "toggle_trailing_slash" [.text p] =
      some (.text (toggleTrailingSlash p))) :
    (execAll? call? (("endpoint", endpointValue n e) :: routesEnv vs service registrations)
        registerEndpoint.value).map (·.leave (routesEnv vs service registrations)) =
      some (routesEnv vs service (registrations ++ roundRegistrations d e)) := by
  let inner : Env := ("route", .serving e.route.methods (e.answer d)) ::
    ("endpoint", endpointValue n e) :: routesEnv vs service (registrations ++ [e.own d])
  have hinner : inner.value "endpoint" = endpointValue n e := by simp [inner, Env.value_cons]
  have hwants : eval? call? inner
      (.binary (endpointField "strict_slash") .and
        (.binary (endpointField "path") .ne (.text "/"))) =
        some (.flag (e.redirects && e.route.path != "/")) := by
    simp [eval?_endpointField hinner, Value.binary?]
  simp only [registerEndpoint, Noted.value_bind, Noted.value_pure, execAll?_append,
    execAll?_registerHandler hn, Option.bind_some, execAll?, exec?]
  rw [hwants]
  cases hguard : e.redirects && e.route.path != "/" with
  | false =>
    rw [roundRegistrations, hguard]
    exact congrArg some (leave_routesEnv [_, _])
  | true =>
    rw [execAll?_registerRedirect _ hservice htoggle, roundRegistrations, hguard,
      List.append_assoc]
    exact congrArg some (leave_routesEnv [_, _])

include hn in
/-- The whole loop, which goes through the endpoints in their order. -/
theorem foldlM_registerEndpoint (es : List Endpoint)
    (hservice : service = "service" ∨ service = "_service")
    (htoggle : ∀ p, call? "toggle_trailing_slash" [.text p] =
      some (.text (toggleTrailingSlash p))) :
    (es.map (endpointValue n)).foldlM
        (fun env v => (execAll? call? (("endpoint", v) :: env) registerEndpoint.value).map
          (·.leave env))
        (routesEnv vs service registrations) =
      some (routesEnv vs service (registrations ++ es.flatMap (roundRegistrations d))) := by
  induction es generalizing registrations with
  | nil => simp
  | cons e es ih =>
    rw [List.map_cons, List.foldlM_cons, execAll?_registerEndpoint hn hservice htoggle,
      Option.bind_eq_bind, Option.bind_some, ih, List.append_assoc, List.flatMap_cons]

end

theorem method?_stripSuffix (s : String) :
    (Value.stripSuffix s '/').method? "map_or_else"
        [.delayed (.text (s ++ "/")), .function "str::to_string"] =
      some (.text (toggleTrailingSlash s)) := by
  unfold Value.stripSuffix toggleTrailingSlash
  cases s.toList.reverse with
  | nil => rfl
  | cons last rest => by_cases hlast : last = '/' <;> simp [hlast, Value.method?]

section

variable (d : Descriptor)

theorem namedFunction?_bootstrap :
    (bootstrap d).items.findSome? (namedFunction? "routes") =
        some (routesFunction d (.ofProject d.info.name)).value ∧
      (bootstrap d).items.findSome? (namedFunction? "toggle_trailing_slash") =
        some toggleFunction ∧
      (bootstrap d).items.findSome? (namedFunction? "redirect_to_canonical") =
        some redirectFunction.value :=
  ⟨rfl, rfl, rfl⟩

/-- The function for it toggles the trailing slash. -/
theorem callIn?_toggle (depth : ℕ) (path : String) :
    callIn? (bootstrap d) (depth + 1) "toggle_trailing_slash" [.text path] =
      some (.text (toggleTrailingSlash path)) := by
  have hstrip := method?_stripSuffix path
  rw [callIn?, (namedFunction?_bootstrap d).2.1]
  simpa [toggleFunction, run?, Env.value, List.lookup_cons, Env.fill?, Env.text?, Value.method?]
    using hstrip

/-- The body of the function for the routes, from an empty router. -/
theorem run?_routes {call? : String → List Value → Option Value} {n : Names} {service : String}
    (hn : n = .ofProject d.info.name)
    (hservice : service = if d.endpoints.isEmpty then "_service" else "service")
    (htoggle : ∀ p, call? "toggle_trailing_slash" [.text p] =
      some (.text (toggleTrailingSlash p))) :
    run? call? [("router", .router []), (service, .service)] (routesFunction d n).value.body =
      some (.router (d.endpoints.flatMap (roundRegistrations d))) := by
  let vs := d.endpoints.map (endpointValue n)
  have hname : service = "service" ∨ service = "_service" := by
    cases h : d.endpoints.isEmpty <;> simp [hservice, h]
  have hitems : evalAll? call? [("router", .router []), (service, .service)]
      (d.endpoints.map fun e => (endpointExpr n e).value) = some vs := by
    refine evalAll?_endpoints n d.endpoints fun hsome => ?_
    simp [hservice, hsome, Env.value, List.lookup_cons]
  have hvec (ty : Option Ty) : exec? call? [("router", .router []), (service, .service)]
      (.bind "endpoints" false ty
        (.invoke "vec" (d.endpoints.map fun e => (endpointExpr n e).value))) =
      some (routesEnv vs service []) := by
    rw [exec?, eval?, hitems]
    rfl
  have hloop : exec? call? (routesEnv vs service [])
      (.loop "endpoint" (.path "endpoints") registerEndpoint.value) =
      some (routesEnv vs service (d.endpoints.flatMap (roundRegistrations d))) := by
    rw [exec?, eval?]
    exact foldlM_registerEndpoint hn d.endpoints hname htoggle
  have hblank (env : Env) : exec? call? env .blank = some env := rfl
  simp only [routesFunction, Noted.value_bind, Noted.value_pure, Noted.value_each, run?, hvec,
    hloop, hblank, Option.bind_some]
  rfl

/-- What the file registers is what the rounds of its loop do. -/
theorem fileRegistrations?_bootstrap :
    fileRegistrations? (bootstrap d) = some (d.endpoints.flatMap (roundRegistrations d)) := by
  have hcall : callIn? (bootstrap d) 2 "routes" [.router [], .service] =
      some (.router (d.endpoints.flatMap (roundRegistrations d))) := by
    rw [callIn?, (namedFunction?_bootstrap d).1]
    exact run?_routes d rfl rfl (callIn?_toggle d 0)
  rw [fileRegistrations?, hcall]
  rfl

/-- A request that gets a redirect is sent to the toggled path, and its query is kept. -/
theorem fileRedirect?_bootstrap (path : String) (query : Option String) :
    fileRedirect? (bootstrap d) path query =
      some (toggleTrailingSlash path ++ query.elim "" ("?" ++ ·)) := by
  have hcall : callIn? (bootstrap d) 2 "redirect_to_canonical" [.uri path query] =
      some (.redirect (toggleTrailingSlash path ++ query.elim "" ("?" ++ ·))) := by
    rw [callIn?, (namedFunction?_bootstrap d).2.2]
    cases query <;>
      simp [redirectFunction, run?, exec?_define, Env.value, Env.fill?, Env.text?, List.lookup_cons,
        Value.ofOption, Value.method?, Value.imported?, Expr.ofMember, callIn?_toggle d 0 path]
  rw [fileRedirect?, hcall]
  rfl

end

end Service

namespace Descriptor

/-- An endpoint on the root never redirects, so the guard of the loop takes nothing away. -/
theorem roundRegistrations_eq {d : Descriptor} {e : Endpoint} (he : e ∈ d.endpoints) :
    Service.roundRegistrations d e = e.registrations d := by
  have hroot : (e.redirects && e.route.path != "/") = e.redirects := by
    cases hredirects : e.redirects with
    | false => rfl
    | true =>
      have hwants := wantsRedirect_of_redirects he hredirects
      rw [Route.wantsRedirect, Bool.and_eq_true] at hwants
      rw [hwants.2]
      rfl
  rw [Service.roundRegistrations, hroot, Endpoint.registrations]

theorem registrations?_eq (d : Descriptor) : d.registrations? = some d.registrations := by
  rw [registrations?, Service.fileRegistrations?_bootstrap]
  exact congrArg some (List.flatMap_congr fun e he => roundRegistrations_eq he)

end Descriptor

end Scaffold
