import Scaffold.Document.Basic
import Scaffold.Descriptor.Growth

/-!
The written shape of a descriptor. The three texts of an info stand among the members of the record
that carries it; what may be missing has a default, and members of other names are passed over. A
descriptor that is read is grown entry by entry, so that it keeps all rules.
-/

namespace Scaffold

open Readable

variable {ν : Type} [Readable ν]

namespace Info

def keys : List String := ["Name", "Summary", "Description"]

def members (i : Info) : List (String × Document) :=
  [("Name", .text i.name), ("Summary", .text i.summary), ("Description", .text i.description)]

def read (ms : List (String × ν)) : Option Info := do
  some
    { name := ← optional ms "Name" "" ownText?
      summary := ← optional ms "Summary" "" ownText?
      description := ← optional ms "Description" "" ownText? }

end Info

namespace Method

def read (v : ν) : Option Method := do ofName? (← word? v)

end Method

namespace Route

def keys : List String := ["Path", "StrictSlash", "HttpMethods", "HandlerName"]

def document (r : Route) : Document :=
  .record (r.info.members ++
    [("Path", .text r.path), ("StrictSlash", .flag r.strictSlash),
     ("HttpMethods", .list (r.methods.map fun m => .text m.name)),
     ("HandlerName", .text r.handler)])

def read (v : ν) : Option Route := do
  let ms ← members? v
  guard (othersStorable ms keys)
  some
    { info := ← Info.read ms
      path := ← required ms "Path" text?
      strictSlash := ← optional ms "StrictSlash" false flag?
      methods := ← optional ms "HttpMethods" [] (each Method.read)
      handler := ← required ms "HandlerName" text? }

end Route

namespace Middleware

def keys : List String := ["Paths", "HandlerName", "Priority"]

def document (m : Middleware) : Document :=
  .record (m.info.members ++
    [("Paths", .list (m.paths.map .text)), ("HandlerName", .text m.handler),
     ("Priority", .number m.priority.toInt)])

def read (v : ν) : Option Middleware := do
  let ms ← members? v
  guard (othersStorable ms keys)
  some
    { info := ← Info.read ms
      paths := ← optional ms "Paths" [] (each text?)
      handler := ← required ms "HandlerName" text?
      priority := ← optional ms "Priority" 0 number? }

end Middleware

/-- The parts of a written descriptor before they are joined. -/
structure Draft where
  info : Info
  routes : List Route
  middlewares : List Middleware
  deriving DecidableEq, Repr

namespace Draft

def keys : List String := ["Routes", "Middlewares"]

def read (v : ν) : Option Draft := do
  let ms ← members? v
  guard (othersStorable ms keys)
  some
    { info := ← Info.read ms
      routes := ← optional ms "Routes" [] (each Route.read)
      middlewares := ← optional ms "Middlewares" [] (each Middleware.read) }

/-- Routes are added first, then middlewares, in the order of the document. -/
def build (d : Draft) : Except Rejection Descriptor :=
  (Descriptor.base d.info).addAll d.routes d.middlewares

end Draft

namespace Descriptor

def document (d : Descriptor) : Document :=
  .record (d.info.members ++
    [("Routes", .list (d.routes.map Route.document)),
     ("Middlewares", .list (d.middlewares.map Middleware.document))])

end Descriptor

end Scaffold
