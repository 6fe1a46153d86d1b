import Scaffold.Proofs.LocalNames
import Scaffold.Proofs.Rendering

/-!
What the files of a service declare. A file reserves the names of its items, so no import is spoken
by one of them, and its items have names of their own. The contract alone may declare a name twice:
the title of a project can turn the trait of its handlers into the name of the handler type.
-/

namespace Scaffold

namespace Source

/-- The name that the item declares, if it has one. -/
def Item.name? : Item → Option String
  | .submodule _ _ name _ => some name
  | .struct _ _ _ name _ _ => some name
  | .typeAlias _ _ name _ _ => some name
  | .const _ _ name _ _ => some name
  | .trait _ _ name _ _ => some name
  | .impl _ _ _ _ _ => none
  | .function f => some f.signature.name

/-- The names of the items at the top of the file, in the order of the text. -/
def File.declaredNames (f : File) : List String := f.items.filterMap Item.name?

/-- No symbol is spoken by the name of an item. -/
def File.ImportsApart (f : File) : Prop :=
  ∀ (s : Symbol) (spoken : String), f.imports.localName? s = some spoken →
    spoken ∉ f.declaredNames

/-- A file whose imports reserve the names of its items keeps them for these. -/
theorem File.importsApart_of_ofLists {f : File} {symbols : List Symbol} {declared : List String}
    (himports : f.imports = .ofLists symbols declared) (hdeclared : f.declaredNames ⊆ declared) :
    f.ImportsApart := by
  intro s spoken hspoken hmem
  have hreserved := (mem_reserved_ofLists symbols declared spoken).mpr (hdeclared hmem)
  rw [← himports] at hreserved
  exact Imports.localName?_not_reserved hspoken hreserved

end Source

namespace Service

open Source

variable (d : Descriptor)

/-- The four source files of a service. -/
def sourceFiles : List File := [stub d, contract d, bootstrap d, entrypoint d]

theorem declaredNames_stub : (stub d).declaredNames = ["gen", serverType] := rfl

theorem declaredNames_contract :
    (contract d).declaredNames =
      [requestHandler, Naming.titleCase d.info.name ++ "Service",
       Naming.titleCase d.info.name ++ "Handler",
       Naming.titleCase d.info.name ++ "Middleware"] := rfl

theorem declaredNames_bootstrap :
    (bootstrap d).declaredNames =
      [routerType, "Endpoint", "MiddlewareFn", "routes", "middlewares", "toggle_trailing_slash",
       "redirect_to_canonical"] := rfl

theorem declaredNames_entrypoint : (entrypoint d).declaredNames = [addressName, "main"] := rfl

theorem importsApart_of_mem {f : File} (hf : f ∈ sourceFiles d) : f.ImportsApart := by
  simp only [sourceFiles, List.mem_cons, List.not_mem_nil, or_false] at hf
  rcases hf with rfl | rfl | rfl | rfl
  · apply File.importsApart_of_ofLists rfl
    simp [declaredNames_stub]
  · apply File.importsApart_of_ofLists rfl
    exact List.Subset.refl _
  · exact File.importsApart_of_ofLists rfl (List.Subset.refl _)
  · exact File.importsApart_of_ofLists rfl (List.Subset.refl _)

/-- Names with different last letters differ. -/
theorem append_ne_of_getLast?_ne (title : String) {ending name : String}
    (hending : ending.toList ≠ []) (hlast : ending.toList.getLast? ≠ name.toList.getLast?) :
    title ++ ending ≠ name := by
  intro heq
  apply hlast
  rw [← heq, String.toList_append, List.getLast?_append_of_ne_nil _ hending]

/-- The endings tell the traits of a service apart. -/
theorem nodup_traitNames (title : String) :
    [title ++ "Service", title ++ "Handler", title ++ "Middleware"].Nodup := by
  simp [String.append_right_inj]

/-- Only the trait of the handlers can have the name of the handler type. -/
theorem requestHandler_mem_traitNames_iff (title : String) :
    requestHandler ∈ [title ++ "Service", title ++ "Handler", title ++ "Middleware"] ↔
      title = "Request" := by
  have hservice : requestHandler ≠ title ++ "Service" :=
    Ne.symm (append_ne_of_getLast?_ne title (by decide) (by decide))
  have hmiddleware : requestHandler ≠ title ++ "Middleware" :=
    Ne.symm (append_ne_of_getLast?_ne title (by decide) (by decide))
  have hhandler : requestHandler = title ++ "Handler" ↔ title = "Request" := by
    change "Request" ++ "Handler" = title ++ "Handler" ↔ _
    rw [String.append_left_inj, eq_comm]
  simp [hservice, hmiddleware, hhandler]

theorem nodup_declaredNames_contract_iff :
    (contract d).declaredNames.Nodup ↔ Naming.titleCase d.info.name ≠ "Request" := by
  rw [declaredNames_contract, List.nodup_cons, requestHandler_mem_traitNames_iff]
  exact and_iff_left (nodup_traitNames (Naming.titleCase d.info.name))

/-- No file imports a name that it declares, and no file declares a name twice, except a contract:
it does so exactly if the title of the project is `Request`, so that the trait of the handlers is
called like the handler type. -/
theorem contract_alone_declares_twice (d : Descriptor) :
    (∀ f ∈ sourceFiles d, f.ImportsApart) ∧
    (∀ f ∈ [stub d, bootstrap d, entrypoint d], f.declaredNames.Nodup) ∧
    ((contract d).declaredNames.Nodup ↔ Naming.titleCase d.info.name ≠ "Request") := by
  refine ⟨fun f hf => importsApart_of_mem d hf, ?_, ?_⟩
  · simp only [List.forall_mem_cons, declaredNames_stub, declaredNames_bootstrap,
      declaredNames_entrypoint]
    decide +kernel
  · exact nodup_declaredNames_contract_iff d

theorem fleet_declares_once :
    fleet.Reachable ∧ Naming.isProjectName fleet.info.name = true ∧
      ∀ f ∈ sourceFiles fleet, f.ImportsApart ∧ f.declaredNames.Nodup := by
  have hreachable : fleet.Reachable := (Descriptor.Reachable.base _).afterAll _
  have htitle : Naming.titleCase fleet.info.name ≠ "Request" := by decide +kernel
  obtain ⟨hapart, hothers, hcontract⟩ := contract_alone_declares_twice fleet
  refine ⟨hreachable, by decide +kernel, fun f hf => ⟨hapart f hf, ?_⟩⟩
  simp only [sourceFiles, List.mem_cons, List.not_mem_nil, or_false] at hf
  rcases hf with rfl | rfl | rfl | rfl
  · exact hothers _ (by simp)
  · exact hcontract.mpr htitle
  · exact hothers _ (by simp)
  · exact hothers _ (by simp)

/-- A project with a valid name whose contract has a text and declares a name twice. -/
theorem request_contract_declares_twice :
    let d := Descriptor.base { name := "request" }
    d.Reachable ∧ Naming.isProjectName d.info.name = true ∧
      (∃ text, (contract d).render = .ok text) ∧ ¬ (contract d).declaredNames.Nodup := by
  intro d
  have hname : Naming.isProjectName d.info.name = true := by decide +kernel
  have htext := contract_renders (Descriptor.wellFormed_base { name := "request" }) hname
  exact ⟨.base _, hname, htext, by decide +kernel⟩

end Service

end Scaffold
