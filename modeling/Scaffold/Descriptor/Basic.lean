import Scaffold.Text.Blank
import Scaffold.Text.Case
import Scaffold.Text.Literal

/-!
The description of a service: what it is called, the routes it serves and the middlewares wrapped
around them.
-/

namespace Scaffold

/-- A name, a one-line summary and a longer description; each may be empty. -/
structure Info where
  name : String := ""
  summary : String := ""
  description : String := ""
  deriving DecidableEq, Repr, Inhabited

inductive Method where
  | get | post | put | patch | delete | options | head | connect | trace
  deriving DecidableEq, Repr, Inhabited

namespace Method

def all : List Method := [get, post, put, patch, delete, options, head, connect, trace]

def name : Method → String
  | get => "GET"
  | post => "POST"
  | put => "PUT"
  | patch => "PATCH"
  | delete => "DELETE"
  | options => "OPTIONS"
  | head => "HEAD"
  | connect => "CONNECT"
  | trace => "TRACE"

/-- The method spelled exactly so. -/
def ofName? (s : String) : Option Method := all.find? (·.name == s)

theorem mem_all (m : Method) : m ∈ all := by cases m <;> decide

theorem ofName?_name (m : Method) : ofName? m.name = some m := by cases m <;> decide +kernel

/-- The method spelled so up to ASCII case and surrounding blanks. -/
def parse? (s : String) : Option Method := all.find? (Text.sameAsciiLetters ·.name (Text.trim s))

def unknownMessage (s : String) : String := "unknown HTTP method: " ++ Text.quoted s

end Method

/-- An endpoint, the methods it answers and the service method that handles it. A route that lists
no method answers every method that no other route on its path lists. -/
structure Route where
  info : Info := {}
  path : String
  strictSlash : Bool := false
  methods : List Method := []
  handler : String
  deriving DecidableEq, Repr, Inhabited

namespace Route

/-- Lists one more method, unless it is listed already. -/
def withMethod (r : Route) (m : Method) : Route :=
  if r.methods.contains m then r else { r with methods := r.methods ++ [m] }

def accepts (r : Route) (m : Method) : Bool := r.methods.contains m

def servesEveryMethod (r : Route) : Bool := r.methods.isEmpty

end Route

/-- A middleware; of two, the one of higher priority sees a request first. -/
structure Middleware where
  info : Info := {}
  paths : List String := []
  handler : String
  priority : Int64 := 0
  deriving DecidableEq, Repr, Inhabited

namespace Middleware

/-- The path that stands for every route. -/
def everyPath : String := "*"

/-- Names one more path, unless it is named already. -/
def withPath (m : Middleware) (path : String) : Middleware :=
  if m.paths.contains path then m else { m with paths := m.paths ++ [path] }

def appliesToAll (m : Middleware) : Bool := m.paths.isEmpty || m.paths.contains everyPath

end Middleware

structure Descriptor where
  info : Info := {}
  routes : List Route := []
  middlewares : List Middleware := []
  deriving DecidableEq, Repr, Inhabited

namespace Descriptor

def base (info : Info) : Descriptor := { info }

def isEmpty (d : Descriptor) : Bool := d.routes.isEmpty && d.middlewares.isEmpty

/-- Highest priority first; equal priorities keep the order in which they were added. -/
def middlewaresByPriority (d : Descriptor) : List Middleware :=
  d.middlewares.mergeSort fun a b => decide (b.priority.toInt ≤ a.priority.toInt)

theorem perm_middlewaresByPriority (d : Descriptor) :
    d.middlewaresByPriority.Perm d.middlewares := List.mergeSort_perm _ _

end Descriptor

end Scaffold
