import Scaffold.Service.Names
import Scaffold.Source.Imports

/-!
The items of other modules that generated code speaks of.
-/

namespace Scaffold.Service

open Source

/-- An item that the contract of the same service declares. -/
def contractItem (name : String) : Symbol := ⟨contractModule, name⟩

namespace Vocabulary

def router : Symbol := ⟨"axum", "Router"⟩
def serve : Symbol := ⟨"axum", "serve"⟩
def request : Symbol := ⟨"axum::extract", "Request"⟩
def statusCode : Symbol := ⟨"axum::http", "StatusCode"⟩
def uri : Symbol := ⟨"axum::http", "Uri"⟩
def response : Symbol := ⟨"axum::response", "Response"⟩
def intoResponse : Symbol := ⟨"axum::response", "IntoResponse"⟩
def redirect : Symbol := ⟨"axum::response", "Redirect"⟩
def methodFilter : Symbol := ⟨"axum::routing", "MethodFilter"⟩
def routeService : Symbol := ⟨"axum::routing", "Route"⟩
def on : Symbol := ⟨"axum::routing", "on"⟩
def onService : Symbol := ⟨"axum::routing", "on_service"⟩
def any : Symbol := ⟨"axum::routing", "any"⟩
def anyService : Symbol := ⟨"axum::routing", "any_service"⟩
def infallible : Symbol := ⟨"std::convert", "Infallible"⟩
def arc : Symbol := ⟨"std::sync", "Arc"⟩
def tcpListener : Symbol := ⟨"tokio::net", "TcpListener"⟩
def serviceFn : Symbol := ⟨"tower", "service_fn"⟩
def serviceExt : Symbol := ⟨"tower", "ServiceExt"⟩
def layerFn : Symbol := ⟨"tower::layer", "layer_fn"⟩
def boxedService : Symbol := ⟨"tower::util", "BoxCloneSyncService"⟩

end Vocabulary

end Scaffold.Service
