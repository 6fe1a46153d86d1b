import Mathlib.Data.List.Forall2
import Mathlib.Data.Prod.Basic
import Scaffold.Proofs.Fallbacks
import Scaffold.Proofs.Rendering
import Scaffold.Proofs.Router

/-!
The files of a service agree with each other, each read off its own tree. The stub implements just
the methods that the contract demands, the endpoints call methods of the handler trait, and the
layers are the methods of the middleware trait, each of them once.
-/

namespace Scaffold.Service

open Source

def trait? : Item → Option (String × List Signature)
  | .trait _ _ name _ methods => some (name, methods)
  | _ => none

/-- The traits that the file declares, each with its methods. -/
def traits (f : File) : List (String × List Signature) := f.items.filterMap trait?

def implementation? : Item → Option (String × Symbol × List Signature)
  | .impl _ [] (some (.imported capability [])) (.named self []) functions =>
    some (self, capability, functions.map (·.signature))
  | _ => none

/-- The imported traits that the file implements, each for which type and with which methods. -/
def implementations (f : File) : List (String × Symbol × List Signature) :=
  f.items.filterMap implementation?

/-- A type of the contract as other files speak it: they import the handler type. -/
def tyAbroad : Ty → Ty
  | .named name [] => if name = requestHandler then importedHandlerTy.value else .named name []
  | t => t

def signatureAbroad (s : Signature) : Signature :=
  { s with
    params := s.params.map fun p => { p with ty := tyAbroad p.ty }
    result := s.result.map tyAbroad }

/-- The method of a handler: it borrows the service, takes the parameters and gives a handler. -/
structure Handles (handler : String) (params : List Param) (s : Signature) : Prop where
  name_eq : s.name = Naming.methodName handler
  receiver_eq : s.receiver = some .byRef
  params_eq : s.params = params
  result_eq : s.result = some declaredHandlerTy

/-- The next handler of the chain, as the contract has it passed to a middleware. -/
def nextParam : Param := { name := "next", ty := declaredHandlerTy }

section

variable (d : Descriptor)

/-- The methods of the handler trait. -/
def handlerMethods : List Signature :=
  d.wirings.map fun p => routeSignature declaredHandlerTy p.1 p.2

/-- The methods of the middleware trait. -/
def middlewareMethods : List Signature :=
  d.middlewares.map (middlewareSignature declaredHandlerTy)

theorem traits_contract :
    let n := Names.ofProject d.info.name
    traits (contract d) =
      [(n.service, []), (n.handler, handlerMethods d), (n.middleware, middlewareMethods d)] := rfl

theorem implementations_stub :
    let n := Names.ofProject d.info.name
    implementations (stub d) =
      [(serverType, contractItem n.handler, (handlerMethods d).map signatureAbroad),
       (serverType, contractItem n.middleware, (middlewareMethods d).map signatureAbroad)] := by
  intro n
  have hread : implementations (stub d) =
      [(serverType, contractItem n.handler,
        (d.wirings.map fun p => (routeStub p.1 p.2).value).map (·.signature)),
       (serverType, contractItem n.middleware,
        (d.middlewares.map fun m => (middlewareStub m).value).map (·.signature))] := rfl
  rw [hread, handlerMethods, middlewareMethods]
  simp only [List.map_map]
  rfl

theorem forall₂_handlerMethods :
    List.Forall₂ (fun (r : Route) => Handles r.handler []) d.routes (handlerMethods d) := by
  rw [← d.map_fst_wirings, handlerMethods, List.forall₂_map_left_iff, List.forall₂_map_right_iff,
    List.forall₂_same]
  intro p _
  exact ⟨rfl, rfl, rfl, rfl⟩

theorem forall₂_middlewareMethods :
    List.Forall₂ (fun (m : Middleware) => Handles m.handler [nextParam]) d.middlewares
      (middlewareMethods d) := by
  rw [middlewareMethods, List.forall₂_map_right_iff, List.forall₂_same]
  intro m _
  exact ⟨rfl, rfl, rfl, rfl⟩

end

/-- A method of a capability, as the service has it. -/
def capabilityMethod? : Expr → Option (Symbol × String)
  | .traitItem (.named "S" []) (.imported capability []) item => some (capability, item)
  | _ => none

/-- The methods that a function for the middlewares lists first of all. -/
def layers? (f : Function) : Option (List (Symbol × String)) :=
  match f.body with
  | .bind "mws" false _ (.invoke "vec" items) :: _ => items.mapM capabilityMethod?
  | _ => none

/-- The methods that a file wraps around its router, from its function for the middlewares. -/
def fileLayers? (f : File) : Option (List (Symbol × String)) := do
  layers? (← f.items.findSome? (namedFunction? "middlewares"))

/-- The middlewares, the one of highest priority first, as methods of the capability. -/
def layers (d : Descriptor) (n : Names) : List (Symbol × String) :=
  d.middlewaresByPriority.map fun m => (contractItem n.middleware, Naming.methodName m.handler)

theorem fileLayers?_bootstrap (d : Descriptor) :
    fileLayers? (bootstrap d) = some (layers d (.ofProject d.info.name)) := by
  let n := Names.ofProject d.info.name
  have hfile : fileLayers? (bootstrap d) =
      (d.middlewaresByPriority.map fun m => (capabilityMethod n.middleware m.handler).value).mapM
        capabilityMethod? := rfl
  rw [hfile, List.mapM_map]
  exact List.mapM_pure

theorem perm_layers (d : Descriptor) (n : Names) :
    (layers d n).Perm ((middlewareMethods d).map fun s => (contractItem n.middleware, s.name)) := by
  rw [middlewareMethods, List.map_map]
  exact d.perm_middlewaresByPriority.map _

theorem nodup_layers {d : Descriptor} (hd : d.WellFormed) (n : Names) : (layers d n).Nodup := by
  have hnames := hd.nodup_middlewares.map (Prod.mk_right_injective (contractItem n.middleware))
  rw [List.map_map] at hnames
  exact (d.perm_middlewaresByPriority.map _).nodup_iff.mpr hnames

/-- The record stands for the route: it has its path and its methods, and calls its handler. -/
structure StandsFor (n : Names) (r : Route) (e : EndpointRecord) : Prop where
  path_eq : e.path = r.path
  methods_eq : e.methods = r.methods
  capability_eq : e.capability = contractItem n.handler
  handler_eq : e.handler = Naming.methodName r.handler

theorem forall₂_records (d : Descriptor) (n : Names) :
    List.Forall₂ (StandsFor n) (Descriptor.unshadowed d.routes) (d.endpoints.map (recordOf n)) := by
  rw [← Descriptor.routed_eq, Descriptor.endpoints_eq, List.map_map, List.forall₂_map_right_iff,
    List.forall₂_same]
  intro r _
  exact ⟨rfl, rfl, rfl, rfl⟩

theorem exists_handlerMethod {d : Descriptor} {e : Endpoint} (he : e ∈ d.endpoints) :
    ∃ s ∈ handlerMethods d, s.name = Naming.methodName e.route.handler := by
  have hmem := Descriptor.route_mem_routes he
  rw [← d.map_fst_wirings, List.mem_map] at hmem
  obtain ⟨p, hp, hroute⟩ := hmem
  exact ⟨_, List.mem_map_of_mem hp, by rw [← hroute]; rfl⟩

/-- The contract and the stub have one method for each route and each middleware, in their order and
alike; the endpoints are the routes that are not shadowed, in their order, and call methods of the
handler trait; the layers are the methods of the middleware trait, each once. -/
theorem artifacts_agree (d : Descriptor) :
    let n := Names.ofProject d.info.name
    ∃ handlers middlewares records layers,
      traits (contract d) =
        [(n.service, []), (n.handler, handlers), (n.middleware, middlewares)] ∧
      implementations (stub d) =
        [(serverType, contractItem n.handler, handlers.map signatureAbroad),
         (serverType, contractItem n.middleware, middlewares.map signatureAbroad)] ∧
      List.Forall₂ (fun (r : Route) => Handles r.handler []) d.routes handlers ∧
      List.Forall₂ (fun (m : Middleware) => Handles m.handler [nextParam]) d.middlewares
        middlewares ∧
      fileRecords? (bootstrap d) = some records ∧
      List.Forall₂ (StandsFor n) (Descriptor.unshadowed d.routes) records ∧
      (∀ e ∈ records, ∃ s ∈ handlers, s.name = e.handler) ∧
      fileLayers? (bootstrap d) = some layers ∧
      layers.Perm (middlewares.map fun s => (contractItem n.middleware, s.name)) ∧
      (d.Reachable → layers.Nodup) := by
  intro n
  refine ⟨handlerMethods d, middlewareMethods d, d.endpoints.map (recordOf n), layers d n,
    traits_contract d, implementations_stub d, forall₂_handlerMethods d,
    forall₂_middlewareMethods d, fileRecords?_bootstrap d, forall₂_records d n, ?_,
    fileLayers?_bootstrap d, perm_layers d n, fun hd => nodup_layers hd.wellFormed n⟩
  intro e he
  obtain ⟨f, hf, rfl⟩ := List.mem_map.mp he
  exact exists_handlerMethod hf

/-- Two fallbacks of one path, of which the second is shadowed, and two middlewares. -/
def guardedFleet : Descriptor :=
  (Descriptor.base { name := "fleet" }).afterAll
    [.addRoute { path := "/ships", handler := "First" },
     .addRoute { path := "/ships", handler := "Second" },
     .addRoute { path := "/ships", methods := [.get], handler := "List" },
     .addMiddleware { handler := "Logger", priority := 1 },
     .addMiddleware { handler := "Guard", priority := 2 }]

theorem guardedFleet_artifacts_agree :
    guardedFleet.Reachable ∧ ∃ records layers,
      fileRecords? (bootstrap guardedFleet) = some records ∧ records.length = 2 ∧
      fileLayers? (bootstrap guardedFleet) = some layers ∧ layers.length = 2 ∧ layers.Nodup := by
  have hreachable : guardedFleet.Reachable := (Descriptor.Reachable.base _).afterAll _
  obtain ⟨-, middlewares, records, layers, -, -, -, hmiddlewares, hrecords, hstand, -, hlayers,
    hperm, hnodup⟩ := artifacts_agree guardedFleet
  have hlength : layers.length = guardedFleet.middlewares.length := by
    rw [hperm.length_eq, List.length_map, hmiddlewares.length_eq]
  exact ⟨hreachable, records, layers, hrecords, hstand.length_eq.symm.trans rfl,
    hlayers, hlength.trans rfl, hnodup hreachable⟩

end Scaffold.Service
