import Scaffold.Service.Documentation
import Scaffold.Service.Vocabulary
import Scaffold.Source.Noted

/-!
The entrypoint of a service, which binds the address and serves the router.
-/

namespace Scaffold.Service

open Source Vocabulary

/-- The server, as the crate of the project exports it. -/
def serverItemOf (n : Names) : Symbol := ⟨n.crate, serverType⟩

/-- The router wrapper, as the crate of the project exports it. -/
def routerItemOf (n : Names) : Symbol := ⟨n.crate ++ "::gen::bootstrap", routerType⟩

def addressName : String := "DEFAULT_ADDRESS"

def addressItem : Item :=
  .const ["Address the service listens on."] false addressName (.ref (.plain "str"))
    (.text defaultAddress)

def mainFunction (n : Names) : Noted Function := do
  return {
    signature :=
      { attrs := [.path "tokio::main"]
        isAsync := true
        name := "main"
        result := some (.named "std::io::Result" [.tuple []]) }
    body :=
      [.define "service"
        (.call (← (routerItemOf n).member "new")
          [.call (← (serverItemOf n).member "default") []]),
       .define "listener"
        (.attempt (.await (.call (← tcpListener.member "bind") [.path addressName]))),
       .blank,
       .comment "A listener failure ends the process; it is never retried.",
       .result (.await (.call (← serve.expr)
        [.path "listener", .method (.path "service") "into_router" []]))] }

def entrypoint (d : Descriptor) : File :=
  let n := Names.ofProject d.info.name
  .ofNoted ["Process entrypoint of " ++ codeSpan n.project ++ "."] [addressName, "main"]
    [pure addressItem, .function <$> mainFunction n]

end Scaffold.Service
