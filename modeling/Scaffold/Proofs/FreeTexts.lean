import Scaffold.Proofs.CodeLines
import Scaffold.Proofs.Rendering

/-!
The free texts of a descriptor never reach the code of its files. Descriptors that agree but for
their summaries, descriptions, names of entries and middleware paths are wired alike, so their files
differ in documentation alone.
-/

namespace Scaffold

open Source

def Route.withoutTexts (r : Route) : Route := { r with info := {} }

def Middleware.withoutTexts (m : Middleware) : Middleware := { m with info := {}, paths := [] }

namespace Descriptor

/-- What is left when every text is emptied that only describes: of the info of the service the name
is left, of those of its entries nothing, and a middleware keeps no paths. -/
def withoutTexts (d : Descriptor) : Descriptor where
  info := { name := d.info.name }
  routes := d.routes.map Route.withoutTexts
  middlewares := d.middlewares.map Middleware.withoutTexts

variable (d : Descriptor)

theorem middlewares_withoutTexts :
    d.withoutTexts.middlewares = d.middlewares.map Middleware.withoutTexts := rfl

theorem fallbackHandler?_withoutTexts (routes : List Route) (path : String) :
    fallbackHandler? (routes.map Route.withoutTexts) path = fallbackHandler? routes path := by
  unfold fallbackHandler?
  rw [List.find?_map, Option.map_map]
  rfl

theorem shadowsAfter_withoutTexts (earlier routes : List Route) :
    shadowsAfter (earlier.map Route.withoutTexts) (routes.map Route.withoutTexts) =
      (shadowsAfter earlier routes).map fun p => (p.1.withoutTexts, p.2) := by
  induction routes generalizing earlier with
  | nil => rfl
  | cons r rs ih =>
    have hshadow : shadow? (earlier.map Route.withoutTexts) r.withoutTexts = shadow? earlier r := by
      simp only [shadow?, fallbackHandler?_withoutTexts]
      rfl
    have hrest := ih (earlier ++ [r])
    rw [List.map_append] at hrest
    simp only [List.map_cons, shadowsAfter, hshadow]
    rw [← hrest]
    rfl

theorem routed_withoutTexts : d.withoutTexts.routed = d.routed.map Route.withoutTexts := by
  have hshadows := shadowsAfter_withoutTexts [] d.routes
  simp only [List.map_nil] at hshadows
  simp only [routed, withoutTexts, hshadows, List.filter_map, List.map_map]
  rfl

theorem redirectBlocked_withoutTexts (r : Route) :
    d.withoutTexts.redirectBlocked r.withoutTexts = d.redirectBlocked r := by
  unfold redirectBlocked
  rw [routed_withoutTexts, List.any_map]
  rfl

theorem wirings_withoutTexts :
    d.withoutTexts.wirings = d.wirings.map fun p => (p.1.withoutTexts, p.2) := by
  have hshadows := shadowsAfter_withoutTexts [] d.routes
  have hwiring (r : Route) (shadow : Option String) :
      d.withoutTexts.wiringOf r.withoutTexts shadow = d.wiringOf r shadow := by
    cases shadow with
    | some handler => rfl
    | none =>
      simp only [wiringOf, redirectBlocked_withoutTexts]
      rfl
  simp only [List.map_nil] at hshadows
  unfold wirings
  rw [withoutTexts, hshadows, List.map_map, List.map_map]
  exact List.map_congr_left fun p _ => congrArg (Prod.mk p.1.withoutTexts) (hwiring p.1 p.2)

theorem endpoints_withoutTexts :
    d.withoutTexts.endpoints =
      d.endpoints.map fun e => { e with route := e.route.withoutTexts } := by
  have hendpoint (p : Route × Wiring) : endpointOf? (p.1.withoutTexts, p.2) =
      (endpointOf? p).map fun e => { e with route := e.route.withoutTexts } := by
    obtain ⟨r, handler | redirects⟩ := p <;> rfl
  unfold endpoints
  rw [wirings_withoutTexts, List.filterMap_map, List.map_filterMap]
  exact List.filterMap_congr fun p _ => hendpoint p

theorem middlewaresByPriority_withoutTexts :
    d.withoutTexts.middlewaresByPriority =
      d.middlewaresByPriority.map Middleware.withoutTexts :=
  (List.map_mergeSort (f := Middleware.withoutTexts) fun _ _ _ _ => rfl).symm

end Descriptor

namespace Service

variable (d : Descriptor)

theorem isEmpty_endpoints_withoutTexts :
    d.withoutTexts.endpoints.isEmpty = d.endpoints.isEmpty := by
  rw [d.endpoints_withoutTexts, List.isEmpty_map]

theorem routesFunction_withoutTexts (n : Names) :
    routesFunction d.withoutTexts n = routesFunction d n := by
  have hendpoints : Noted.each (endpointExpr n) d.withoutTexts.endpoints =
      Noted.each (endpointExpr n) d.endpoints := by
    rw [d.endpoints_withoutTexts, Noted.each_map]
    rfl
  unfold routesFunction
  rw [hendpoints, isEmpty_endpoints_withoutTexts]

theorem middlewaresFunction_withoutTexts (n : Names) :
    middlewaresFunction d.withoutTexts n = middlewaresFunction d n := by
  have hlayers :
      Noted.each (fun m => capabilityMethod n.middleware m.handler)
          d.withoutTexts.middlewaresByPriority =
        Noted.each (fun m => capabilityMethod n.middleware m.handler) d.middlewaresByPriority := by
    rw [d.middlewaresByPriority_withoutTexts, Noted.each_map]
    rfl
  unfold middlewaresFunction
  rw [hlayers]

/-- The bootstrap quotes no free text, not even in its documentation. -/
theorem bootstrap_withoutTexts : bootstrap d.withoutTexts = bootstrap d := by
  unfold bootstrap
  simp only [routesFunction_withoutTexts, middlewaresFunction_withoutTexts]
  rfl

theorem entrypoint_withoutTexts : entrypoint d.withoutTexts = entrypoint d := rfl

/-- An entry makes the same stub and the same demand of the contract but for the documentation. -/
theorem undocumented_routeStub (r : Route) (w : Wiring) :
    (routeStub r.withoutTexts w).value.undocumented = (routeStub r w).value.undocumented := by
  simp only [Function.undocumented, Signature.undocumented, routeStub, Noted.value_bind,
    Noted.value_pure, routeSignature, Route.withoutTexts]

theorem symbols_routeStub (r : Route) (w : Wiring) :
    (routeStub r.withoutTexts w).spoken = (routeStub r w).spoken ∧
      (routeStub r.withoutTexts w).lent = (routeStub r w).lent := by
  simp [routeStub]

theorem symbols_middlewareStub (m : Middleware) :
    (middlewareStub m.withoutTexts).spoken = (middlewareStub m).spoken ∧
      (middlewareStub m.withoutTexts).lent = (middlewareStub m).lent := by
  simp [middlewareStub]

theorem undocumented_middlewareStub (m : Middleware) :
    (middlewareStub m.withoutTexts).value.undocumented = (middlewareStub m).value.undocumented := by
  simp only [Function.undocumented, Signature.undocumented, middlewareStub, Noted.value_bind,
    Noted.value_pure, middlewareSignature, Middleware.withoutTexts]

theorem undocumented_routeSignature (ty : Ty) (r : Route) (w : Wiring) :
    (routeSignature ty r.withoutTexts w).undocumented = (routeSignature ty r w).undocumented := by
  simp only [Signature.undocumented, routeSignature, Route.withoutTexts]

theorem undocumented_middlewareSignature (ty : Ty) (m : Middleware) :
    (middlewareSignature ty m.withoutTexts).undocumented =
      (middlewareSignature ty m).undocumented := by
  simp only [Signature.undocumented, middlewareSignature, Middleware.withoutTexts]

theorem symbols_capabilityImpl {α : Type} (capability : String) (xs : List α)
    {f g : α → Noted Function}
    (h : ∀ x, (f x).spoken = (g x).spoken ∧ (f x).lent = (g x).lent) :
    (capabilityImpl capability (.each f xs)).symbols =
      (capabilityImpl capability (.each g xs)).symbols := by
  simp [capabilityImpl, Noted.symbols, h]

theorem alike_stub : (stub d.withoutTexts).Alike (stub d) where
  imports := by
    simp only [stub, File.ofNoted, List.flatMap_cons, List.flatMap_nil, d.wirings_withoutTexts,
      d.middlewares_withoutTexts, Noted.each_map]
    have hroutes (capability : String) := symbols_capabilityImpl capability d.wirings
      (f := fun p => routeStub p.1.withoutTexts p.2) (g := fun p => routeStub p.1 p.2)
      fun p => symbols_routeStub p.1 p.2
    have hmiddlewares (capability : String) := symbols_capabilityImpl capability d.middlewares
      (f := fun m => middlewareStub m.withoutTexts) (g := middlewareStub) symbols_middlewareStub
    rw [hroutes, hmiddlewares]
    rfl
  items := by
    simp only [stub, File.ofNoted, capabilityImpl, Noted.value_bind, Noted.value_pure,
      Noted.value_each, d.wirings_withoutTexts, d.middlewares_withoutTexts, List.map_cons,
      List.map_nil, List.map_map, Item.undocumented, Function.comp_def, undocumented_routeStub,
      undocumented_middlewareStub]
    rfl
  left_documented := List.cons_ne_nil _ _
  right_documented := List.cons_ne_nil _ _

theorem alike_contract : (contract d.withoutTexts).Alike (contract d) where
  imports := rfl
  items := by
    simp only [contract, File.ofNoted, Noted.value_pure, handlerTrait, middlewareTrait,
      d.wirings_withoutTexts, d.middlewares_withoutTexts, List.map_cons, List.map_nil, List.map_map,
      Item.undocumented, Function.comp_def, undocumented_routeSignature,
      undocumented_middlewareSignature]
    rfl
  left_documented := List.cons_ne_nil _ _
  right_documented := List.cons_ne_nil _ _

end Service

/-- Emptying the free texts of a descriptor leaves the code of each source file, or the reason why
there is none, as it was. -/
theorem Artifact.render_withoutTexts (d : Descriptor) {a : Artifact} (ha : a.isSource = true) :
    (a.render d.withoutTexts).map Text.codeLines = (a.render d).map Text.codeLines := by
  cases a with
  | stub => exact (Service.alike_stub d).render_eq
  | contract => exact (Service.alike_contract d).render_eq
  | bootstrap => exact congrArg (·.render.map Text.codeLines) (Service.bootstrap_withoutTexts d)
  | entrypoint => exact congrArg (·.render.map Text.codeLines) (Service.entrypoint_withoutTexts d)
  | manifest => cases ha

/-- Descriptors that differ in free texts alone have source files of the same code: each artifact
renders for both or fails for both alike, and the two texts have the same lines but for comments. -/
theorem free_texts_never_reach_code {d e : Descriptor} (h : d.withoutTexts = e.withoutTexts)
    {a : Artifact} (ha : a.isSource = true) :
    (a.render d).map Text.codeLines = (a.render e).map Text.codeLines := by
  rw [← Artifact.render_withoutTexts d ha, ← Artifact.render_withoutTexts e ha, h]

/-- A service whose texts try to leave their comments. -/
def loudFleet : Descriptor :=
  (Descriptor.base
    { name := "fleet", summary := "Ships\nmod evil;",
      description := "a\r\n\n*/ fn main()" }).afterAll
    [.addRoute
      { info := { name := "List\nmod", summary := "// s" }, path := "/ships", handler := "List" },
     .addMiddleware { paths := ["/a`\nuse evil;"], handler := "Guard" }]

def quietFleet : Descriptor :=
  (Descriptor.base { name := "fleet" }).afterAll
    [.addRoute { path := "/ships", handler := "List" }, .addMiddleware { handler := "Guard" }]

theorem loudFleet_code_eq_quietFleet :
    loudFleet.withoutTexts = quietFleet.withoutTexts ∧
      (Service.stub loudFleet).doc ≠ (Service.stub quietFleet).doc ∧
      ∃ loud quiet, Artifact.stub.render loudFleet = .ok loud ∧
        Artifact.stub.render quietFleet = .ok quiet ∧
        Text.codeLines loud = Text.codeLines quiet := by
  have hsame : loudFleet.withoutTexts = quietFleet.withoutTexts := by decide +kernel
  have hcode := free_texts_never_reach_code hsame (a := .stub) rfl
  have hloud : loudFleet.WellFormed := (Descriptor.wellFormed_base _).afterAll _
  have hquiet : quietFleet.WellFormed := (Descriptor.wellFormed_base _).afterAll _
  obtain ⟨loud, hloud⟩ := Artifact.renders hloud (by decide +kernel) .stub
  obtain ⟨quiet, hquiet⟩ := Artifact.renders hquiet (by decide +kernel) .stub
  rw [hloud, hquiet] at hcode
  exact ⟨hsame, by decide +kernel, loud, quiet, hloud, hquiet, Except.ok.inj hcode⟩

end Scaffold
