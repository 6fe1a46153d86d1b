import Scaffold.Proofs.Routed
import Scaffold.Service.Bootstrap

/-!
What the emitted functions of a bootstrap do when they run. A small interpreter evaluates the
expressions and executes the statements that the functions for the routes and for the redirects are
made of; it knows the methods and the imported items that these call, and whatever else it meets has
no value. A name is that of a variable, or else of a function of the file.
-/

namespace Scaffold

/-- Who answers a request. -/
inductive Answer where
  | handler (capability : Source.Symbol) (method : String)
  | redirect
  deriving DecidableEq, Repr

/-- What is registered at a path; without methods it answers those that no other lists there. -/
structure Registration where
  path : String
  methods : List Method
  answer : Answer
  deriving DecidableEq, Repr

namespace Service

open Source Vocabulary

/-- A value of the emitted code. -/
inductive Value where
  | text (s : String)
  | char (c : Char)
  | flag (b : Bool)
  | absent
  | present (v : Value)
  /-- A set of methods. -/
  | methods (ms : List Method)
  /-- The implementation that the router is built for. -/
  | service
  /-- What a method of a capability returns. -/
  | handler (capability : Symbol) (method : String)
  | function (name : String)
  /-- The result of a closure without parameters. -/
  | delayed (result : Value)
  | record (fields : List (String × Value))
  | list (vs : List Value)
  /-- What answers the given methods, or all that are free on its path if there are none. -/
  | serving (methods : List Method) (answer : Answer)
  | router (registrations : List Registration)
  | uri (path : String) (query : Option String)
  /-- A permanent redirect. -/
  | redirect (target : String)

namespace Value

/-- The text without its last character, if that is the given one. -/
def stripSuffix (s : String) (c : Char) : Value :=
  match s.toList.reverse with
  | [] => absent
  | last :: rest => if last = c then present (text (String.ofList rest.reverse)) else absent

def ofOption : Option String → Value
  | none => absent
  | some s => present (text s)

/-- The result of a method. -/
def method? : Value → String → List Value → Option Value
  | methods ms, "or", [methods ns] => some (methods (ms ++ ns))
  | text s, "strip_suffix", [char c] => some (stripSuffix s c)
  | absent, "map_or_else", [delayed v, function _] => some v
  | present (text s), "map_or_else", [delayed _, function "str::to_string"] => some (text s)
  | uri path _, "path", [] => some (text path)
  | uri _ query, "query", [] => some (ofOption query)
  | router registrations, "route", [text path, serving ms answer] =>
    some (router (registrations ++ [{ path, methods := ms, answer }]))
  | _, _, _ => none

/-- The result of an imported item, or of an item associated with it. -/
def imported? (s : Symbol) (member : Option String) (args : List Value) : Option Value :=
  match args with
  | [methods ms, handler capability method] =>
    if s = onService ∧ member = none then some (serving ms (.handler capability method)) else none
  | [handler capability method] =>
    if s = anyService ∧ member = none then some (serving [] (.handler capability method)) else none
  | [methods ms, function "redirect_to_canonical"] =>
    if s = on ∧ member = none then some (serving ms .redirect) else none
  | [function "redirect_to_canonical"] =>
    if s = any ∧ member = none then some (serving [] .redirect) else none
  | [text target] =>
    if s = Vocabulary.redirect ∧ member = some "permanent" then some (redirect target) else none
  | [] =>
    if s = methodFilter then (member.bind Method.ofName?).map fun m => methods [m] else none
  | _ => none

def binary? : Value → BinaryOp → Value → Option Value
  | flag a, .and, flag b => some (flag (a && b))
  | text a, .ne, text b => some (flag (a != b))
  | text a, .eq, text b => some (flag (a == b))
  | _, _, _ => none

end Value

/-- Variables, the one bound last in front. -/
abbrev Env := List (String × Value)

namespace Env

/-- What a name stands for. -/
def value (env : Env) (name : String) : Value :=
  if name = "None" then .absent else (env.lookup name).getD (.function name)

def text? (env : Env) (name : String) : Option String :=
  match env.lookup name with
  | some (.text s) => some s
  | _ => none

/-- Gives a variable that is there a new value. -/
def assign? (name : String) (v : Value) : Env → Option Env
  | [] => none
  | (n, w) :: env =>
    if n = name then some ((n, v) :: env) else (assign? name v env).map ((n, w) :: ·)

/-- Forgets what was bound behind an earlier state of the variables. -/
def leave (env : Env) (before : Env) : Env := env.drop (env.length - before.length)

/-- Fills the names in braces into a pattern; `name` holds what was read of one, backwards. -/
def fill? (env : Env) : Option (List Char) → List Char → Option (List Char)
  | none, [] => some []
  | none, '\x7b' :: cs => fill? env (some []) cs
  | none, c :: cs => (fill? env none cs).map (c :: ·)
  | some name, '\x7d' :: cs => do
    let s ← env.text? (String.ofList name.reverse)
    (fill? env none cs).map (s.toList ++ ·)
  | some name, c :: cs => fill? env (some (c :: name)) cs
  | some _, [] => none

end Env

section

variable (call? : String → List Value → Option Value)

mutual

/-- The value of an expression, where `call?` tells the results of the functions of the file. -/
@[simp]
def eval? (env : Env) : Expr → Option Value
  | .text s => some (.text s)
  | .char c => some (.char c)
  | .bool b => some (.flag b)
  | .path name => some (env.value name)
  | .imported s member => Value.imported? s member []
  | .call (.path "Some") [e] => (eval? env e).map .present
  | .call (.path name) args => (evalAll? env args).bind (call? name)
  | .call (.imported s member) args => (evalAll? env args).bind (Value.imported? s member)
  | .call (.traitItem (.named "S" []) (.imported capability []) item) [.path "service"] =>
    match env.value "service" with
    | .service => some (.handler capability item)
    | _ => none
  | .method receiver name args => do
    let v ← eval? env receiver
    v.method? name (← evalAll? env args)
  | .field base name => do
    match ← eval? env base with
    | .record fields => fields.lookup name
    | _ => none
  | .ref inner => eval? env inner
  | .binary lhs op rhs => do (← eval? env lhs).binary? op (← eval? env rhs)
  | .closure _ [] body => (eval? env body).map .delayed
  | .record _ fields => (evalFields? env fields).map .record
  | .invoke "vec" items => (evalAll? env items).map .list
  | .invoke "format" [.text pattern] =>
    (env.fill? none pattern.toList).map fun cs => .text (String.ofList cs)
  | .choose scrutinee arms => do evalArms? env (← eval? env scrutinee) arms
  | _ => none

@[simp]
def evalAll? (env : Env) : List Expr → Option (List Value)
  | [] => some []
  | e :: es => do return (← eval? env e) :: (← evalAll? env es)

@[simp]
def evalFields? (env : Env) : List (String × Expr) → Option (List (String × Value))
  | [] => some []
  | (name, e) :: fields => do return (name, ← eval? env e) :: (← evalFields? env fields)

/-- The first arm that the value fits. -/
@[simp]
def evalArms? (env : Env) (v : Value) : List (Arm Expr) → Option Value
  | [] => none
  | { variant, binding, body } :: arms =>
    match v, variant, binding with
    | .present w, "Some", some name => eval? ((name, w) :: env) body
    | .absent, "None", none => eval? env body
    | _, _, _ => evalArms? env v arms

end

mutual

/-- The variables after a statement. -/
@[simp]
def exec? (env : Env) : Stmt → Option Env
  | .bind name _ _ e => (eval? call? env e).map fun v => (name, v) :: env
  | .assign (.path name) e => (eval? call? env e).bind fun v => Env.assign? name v env
  | .comment _ => some env
  | .blank => some env
  | .guarded condition body => do
    match ← eval? call? env condition with
    | .flag true => (execAll? env body).map (·.leave env)
    | .flag false => some env
    | _ => none
  | .loop name sequence body => do
    match ← eval? call? env sequence with
    | .list vs =>
      vs.foldlM (fun env v => (execAll? ((name, v) :: env) body).map (·.leave env)) env
    | _ => none
  | _ => none

@[simp]
def execAll? (env : Env) : List Stmt → Option Env
  | [] => some env
  | s :: ss => (exec? env s).bind fun env => execAll? env ss

end

/-- The value of a block, which its last statement tells. -/
def run? (env : Env) : Block → Option Value
  | [] => none
  | [.result e] => eval? call? env e
  | s :: ss => (exec? call? env s).bind fun env => run? env ss

end

def namedFunction? (name : String) : Item → Option Function
  | .function f => if f.signature.name = name then some f else none
  | _ => none

/-- The result of a function of a file, whose calls go at most so deep. -/
def callIn? (f : File) : ℕ → String → List Value → Option Value
  | 0, _, _ => none
  | depth + 1, name, args => do
    let { signature, body } ← f.items.findSome? (namedFunction? name)
    if signature.params.length = args.length then
      run? (callIn? f depth) ((signature.params.map (·.name)).zip args) body
    else none

/-- What a file registers at an empty router, by its function for the routes. -/
def fileRegistrations? (f : File) : Option (List Registration) := do
  match ← callIn? f 2 "routes" [.router [], .service] with
  | .router registrations => some registrations
  | _ => none

/-- Where a request for a path and a query is redirected to for good, by the function for that. -/
def fileRedirect? (f : File) (path : String) (query : Option String) : Option String := do
  match ← callIn? f 2 "redirect_to_canonical" [.uri path query] with
  | .redirect target => some target
  | _ => none

end Service

end Scaffold
