import Scaffold.Service.Routing
import Scaffold.Text.Pieces

/-!
The documentation that the generated items carry. It quotes the texts of the descriptor; its last
line tells how a route is routed, or where a middleware applies.
-/

namespace Scaffold

namespace Info

/-- The first line, from the name and the summary as far as they are not blank. -/
def headline (i : Info) (fallback : String) : String :=
  let name := Text.trim i.name
  let summary := Text.trim i.summary
  match name.isEmpty, summary.isEmpty with
  | false, false => name ++ ": " ++ summary
  | true, false => summary
  | false, true => name
  | true, true => fallback

/-- The headline, and the description behind an empty line. -/
def documentation (i : Info) (fallback : String) : List String :=
  let description := Text.trim i.description
  i.headline fallback ::
    (if description.isEmpty then [] else "" :: (Text.lines description).map Text.trimEnd)

end Info

/-- A piece of code within a documentation line. -/
def codeSpan (s : String) : String := "`" ++ s ++ "`"

namespace Route

def methodsNote (r : Route) : String :=
  if r.servesEveryMethod then
    "Serves " ++ codeSpan r.path ++ " for every method no other route on the path lists."
  else
    "Serves " ++ codeSpan (String.intercalate ", " (r.methods.map (·.name)) ++ " " ++ r.path) ++ "."

def shadowNote (handler : String) : String :=
  "Not routed: " ++ codeSpan handler ++ " already answers every method on this path."

def redirectNote : String := "The trailing-slash variant of the path redirects here."

def ownVariantNote : String :=
  "The trailing-slash variant of the path is routed on its own and does not redirect here."

/-- What there is to say about the wiring of the route, if anything. -/
def wiringNote? (r : Route) : Wiring → Option String
  | .shadowed handler => some (shadowNote handler)
  | .routed true => some redirectNote
  | .routed false => if r.wantsRedirect then some ownVariantNote else none

def documentation (r : Route) (w : Wiring) : List String :=
  r.info.documentation r.handler ++ ["", r.methodsNote] ++ (r.wiringNote? w).toList

end Route

namespace Middleware

def scopeNote (m : Middleware) : String :=
  let priority := "Priority " ++ toString m.priority.toInt ++ ". "
  if m.appliesToAll then priority ++ "Applies to every route."
  else
    priority ++ "Declared for " ++ String.intercalate ", " (m.paths.map codeSpan) ++
      "; the generated router wraps every route."

def documentation (m : Middleware) : List String :=
  m.info.documentation m.handler ++ ["", m.scopeNote]

end Middleware

end Scaffold
