import Scaffold.Project.Generate
import Scaffold.Proofs.Actions
import Scaffold.Proofs.Routed
import Scaffold.Proofs.Templates

/-!
Every artifact of a valid descriptor has a text. The generated names are identifiers, no two methods
of a trait share one, and each function speaks of symbols that its file registers.
-/

namespace Scaffold

namespace Descriptor

variable {d : Descriptor}

theorem WellFormed.isIdentifier_route (h : d.WellFormed) {r : Route} (hr : r ∈ d.routes) :
    Naming.isIdentifier (Naming.methodName r.handler) = true :=
  Naming.isIdentifier_methodName (h.routes_sound r hr).handler_name

theorem WellFormed.isIdentifier_middleware (h : d.WellFormed) {m : Middleware}
    (hm : m ∈ d.middlewares) : Naming.isIdentifier (Naming.methodName m.handler) = true :=
  Naming.isIdentifier_methodName (h.middleware_names m hm)

/-- No two routes generate one method, routed or not. -/
theorem WellFormed.nodup_wirings (h : d.WellFormed) :
    (d.wirings.map fun p => Naming.methodName p.1.handler).Nodup := by
  have hroutes : (d.routes.map fun r => Naming.methodName r.handler).Nodup :=
    List.pairwise_map.mpr (h.routes_compatible.imp And.left)
  rw [← d.map_fst_wirings, List.map_map] at hroutes
  exact hroutes

theorem WellFormed.nodup_middlewares (h : d.WellFormed) :
    (d.middlewares.map fun m => Naming.methodName m.handler).Nodup :=
  List.pairwise_map.mpr h.middlewares_compatible

end Descriptor

namespace Service

open Source Vocabulary

variable {d : Descriptor}

theorem stub_renders (h : d.WellFormed) (hname : Naming.isProjectName d.info.name = true) :
    ∃ text, (stub d).render = .ok text := by
  have hn := Names.legal_ofProject hname
  refine File.renders_of_sound _ _ ?_
  simp only [List.forall_mem_cons, List.not_mem_nil, false_implies, implies_true, and_true]
  refine ⟨sound_generatedModules, sound_serverItem,
    sound_capabilityImpl hn.handler h.nodup_wirings fun p hp => ?_,
    sound_capabilityImpl hn.middleware h.nodup_middlewares fun m hm => ?_⟩
  · exact sound_routeStub p.2 (h.isIdentifier_route (Descriptor.fst_mem_routes hp))
  · exact sound_middlewareStub (h.isIdentifier_middleware hm)

theorem contract_renders (h : d.WellFormed) (hname : Naming.isProjectName d.info.name = true) :
    ∃ text, (contract d).render = .ok text := by
  have hn := Names.legal_ofProject hname
  refine File.renders_of_sound _ _ ?_
  simp only [List.forall_mem_cons, List.not_mem_nil, false_implies, implies_true, and_true]
  refine ⟨sound_requestHandlerItem, sound_serviceTrait hn, sound_serviceImpl hn,
    sound_capabilityTrait hn.handler ?_ ?_, sound_capabilityTrait hn.middleware ?_ ?_⟩
  · rw [List.map_map]
    exact h.nodup_wirings
  · intro s hs imports
    obtain ⟨p, hp, rfl⟩ := List.mem_map.mp hs
    exact met_routeSignature imports p.2 (h.isIdentifier_route (Descriptor.fst_mem_routes hp))
  · rw [List.map_map]
    exact h.nodup_middlewares
  · intro s hs imports
    obtain ⟨m, hm, rfl⟩ := List.mem_map.mp hs
    exact met_middlewareSignature imports (h.isIdentifier_middleware hm)

theorem bootstrap_renders (h : d.WellFormed) (hname : Naming.isProjectName d.info.name = true) :
    ∃ text, (bootstrap d).render = .ok text := by
  have hn := Names.legal_ofProject hname
  refine File.renders_of_sound _ _ ?_
  simp only [List.forall_mem_cons, List.not_mem_nil, false_implies, implies_true, and_true]
  refine ⟨sound_routerItem, sound_endpointItem, sound_middlewareFnItem, sound_routerImpl hn,
    sound_routesFunction hn fun e he => ?_, sound_middlewaresFunction hn fun m hm => ?_,
    sound_toggleFunction, sound_redirectFunction⟩
  · exact sound_endpointExpr hn (h.isIdentifier_route (Descriptor.route_mem_routes he))
  · have hstored := d.perm_middlewaresByPriority.mem_iff.mp hm
    exact sound_capabilityMethod hn.middleware (h.isIdentifier_middleware hstored)

theorem entrypoint_renders (hname : Naming.isProjectName d.info.name = true) :
    ∃ text, (entrypoint d).render = .ok text := by
  refine File.renders_of_sound _ _ ?_
  simp only [List.forall_mem_cons, List.not_mem_nil, false_implies, implies_true, and_true]
  exact ⟨sound_addressItem, sound_mainFunction (Names.legal_ofProject hname)⟩

end Service

theorem Artifact.renders {d : Descriptor} (h : d.WellFormed)
    (hname : Naming.isProjectName d.info.name = true) (a : Artifact) :
    ∃ text, a.render d = .ok text := by
  unfold Artifact.render
  cases a with
  | stub => exact Service.stub_renders h hname
  | contract => exact Service.contract_renders h hname
  | bootstrap => exact Service.bootstrap_renders h hname
  | entrypoint => exact Service.entrypoint_renders hname
  | manifest => exact ⟨d.manifest.render, rfl⟩

namespace Project

open Scaffold.Action

/-- The error is not that an artifact has no text. -/
def NotRender (e : ProjectError) : Prop := ∀ a r, e ≠ .render a r

theorem notRender_makeDirectory (p : Placement) (path : String) :
    FailsWith NotRender (makeDirectory p path) :=
  FailsWith.adapt fun _ _ _ h => nomatch h

theorem notRender_writeFile (p : Placement) (path text : String) :
    FailsWith NotRender (writeFile p path text) :=
  FailsWith.adapt fun _ _ _ h => nomatch h

theorem notRender_writeArtifact {d : Descriptor} (p : Placement) (base : String) {a : Artifact}
    (h : ∃ text, a.render d = .ok text) : FailsWith NotRender (writeArtifact d p base a) := by
  obtain ⟨text, htext⟩ := h
  unfold writeArtifact
  rw [htext]
  exact notRender_writeFile p _ text

theorem notRender_format (programs : Programs) (program dir : String) :
    FailsWith NotRender (look (format programs program dir)) := by
  apply FailsWith.look
  intro disk e h
  unfold format at h
  split at h <;> cases h <;> exact fun _ _ h => nomatch h

/-- Generation checks the name before it renders anything. -/
theorem notRender_generate (programs : Programs) {d : Descriptor} (p : Placement)
    (h : Naming.isProjectName d.info.name = true → ∀ a : Artifact, ∃ text, a.render d = .ok text) :
    FailsWith NotRender (generate programs d p) := by
  unfold generate
  by_cases hname : Naming.isProjectName d.info.name = true
  · have hwrite (base file : String) : FailsWith NotRender (do
        makeDirectory p base
        makeDirectory p (Path.join base Artifact.generatedFolder)
        makeDirectory p (Path.join base Artifact.commandFolder)
        Artifact.all.forM (writeArtifact d p base)
        writeFile p file d.toYaml
        if p.format then look (format programs p.formatter base)
        pure base) := by
      refine .bind (notRender_makeDirectory p _) fun _ => ?_
      refine .bind (notRender_makeDirectory p _) fun _ => ?_
      refine .bind (notRender_makeDirectory p _) fun _ => ?_
      refine .bind (.forM fun a _ => notRender_writeArtifact p base (h hname a)) fun _ => ?_
      refine .bind (notRender_writeFile p _ _) fun _ => ?_
      split
      · exact .bind (notRender_format programs _ _) fun _ => .pure base
      · exact .pure base
    simp only [hname]
    refine .bind .get fun disk => ?_
    split
    · exact .throw_bind fun _ _ h => nomatch h
    · exact hwrite _ _
  · simp only [hname]
    exact .throw_bind fun _ _ h => nomatch h

end Project

/-- Whatever its descriptor went through, a project with a valid name renders: each of its artifacts
has a text. A name that is not valid is refused before rendering, so no generation ever ends with a
render error. -/
theorem render_never_fails {d : Descriptor} (h : d.Reachable) :
    (Naming.isProjectName d.info.name = true → ∀ a : Artifact, ∃ text, a.render d = .ok text) ∧
    ∀ (programs : Programs) (p : Placement) (disk : Disk) (o : Conditions) (a : Artifact)
      (e : Source.RenderError),
      ((Project.generate programs d p).runOn disk o).1 ≠ .error (.render a e) := by
  have hrender := Artifact.renders h.wellFormed
  refine ⟨hrender, fun programs p disk o a e hfail => ?_⟩
  exact Project.notRender_generate programs p hrender disk o _ hfail a e rfl

/-- A descriptor whose handlers are called like keywords, with a route that is not routed. -/
def fleet : Descriptor :=
  (Descriptor.base { name := "star-fleet" }).afterAll
    [.addRoute { path := "/ships", methods := [.get], handler := "Match", strictSlash := true },
     .addRoute { path := "/ships", handler := "Self" },
     .addRoute { path := "/ships", handler := "crate" },
     .addMiddleware { handler := "Yield" }]

theorem fleet_render_never_fails :
    fleet.Reachable ∧ fleet.routes.length = 3 ∧ Naming.isProjectName fleet.info.name = true ∧
      ∀ a : Artifact, ∃ text, a.render fleet = .ok text := by
  have hreachable : fleet.Reachable := (Descriptor.Reachable.base _).afterAll _
  have hname : Naming.isProjectName fleet.info.name = true := by decide +kernel
  exact ⟨hreachable, by decide +kernel, hname, (render_never_fails hreachable).1 hname⟩

end Scaffold
