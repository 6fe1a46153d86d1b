import Scaffold.Proofs.Rendering

/-!
The crate of a project beside the crates that it depends on. Both are told by the first segment of
an import path, and a valid project name can be that of a dependency. Only four names are.
-/

namespace Scaffold

namespace Naming

theorem crateIdent_of_not_mem {project : String} (h : '-' ∉ project.toList) :
    crateIdent project = project := by
  have hkept : ∀ c ∈ project.toList, (if c == '-' then '_' else c) = id c := by
    intro c hc
    have hdash : ¬ (c == '-') = true := fun heq => h (beq_iff_eq.mp heq ▸ hc)
    exact if_neg hdash
  rw [crateIdent, List.map_congr_left hkept, List.map_id, String.ofList_toList]

/-- A dash becomes an underscore, so a crate with neither is named like its project. -/
theorem crateIdent_eq_iff {project crate : String}
    (h : '_' ∉ crate.toList ∧ '-' ∉ crate.toList) :
    crateIdent project = crate ↔ project = crate := by
  refine ⟨?_, fun heq => heq ▸ crateIdent_of_not_mem (heq ▸ h.2)⟩
  rintro rfl
  refine (crateIdent_of_not_mem fun hdash => h.1 ?_).symm
  rw [crateIdent, String.toList_ofList]
  exact List.mem_map.mpr ⟨'-', hdash, rfl⟩

theorem crateIdent_mem_iff {project : String} {crates : List String}
    (h : ∀ crate ∈ crates, '_' ∉ crate.toList ∧ '-' ∉ crate.toList) :
    crateIdent project ∈ crates ↔ project ∈ crates := by
  constructor
  · intro hmem
    rwa [(crateIdent_eq_iff (h _ hmem)).mp rfl]
  · intro hmem
    rwa [(crateIdent_eq_iff (h _ hmem)).mpr rfl]

end Naming

namespace Source.Symbol

/-- The first segment of the import path. -/
def crate (s : Symbol) : String := (Text.splitPath s.path).headD ""

theorem crate_of_isIdentifier {crate : String} (h : Naming.isIdentifier crate = true)
    (name : String) : (Symbol.mk crate name).crate = crate := by
  have hpieces := Naming.pathPieces_of_not_mem (Naming.not_mem_colon_of_isIdentifier h)
  simp [Symbol.crate, Text.splitPath, hpieces]

theorem crate_of_module {crate : String} (h : Naming.isIdentifier crate = true)
    (module name : String) : (Symbol.mk (crate ++ "::" ++ module) name).crate = crate := by
  have hlist : (crate ++ "::" ++ module).toList = crate.toList ++ ':' :: ':' :: module.toList := by
    simp
  have hpieces := Naming.pathPieces_append module.toList (Naming.not_mem_colon_of_isIdentifier h)
  simp only [Symbol.crate, Text.splitPath, hlist, hpieces, List.map_cons, List.headD_cons,
    String.ofList_toList]

end Source.Symbol

/-- The crates that a generated crate can name without declaring them: the standard library, and
what its manifest asks for. -/
def Descriptor.dependencyCrates (d : Descriptor) : List String :=
  "std" :: d.manifest.dependencies.map fun dependency => Naming.crateIdent dependency.1

namespace Service

open Source Vocabulary

/-- What the entrypoint takes from the crate of the project. -/
def ownItems (n : Names) : List Symbol := [serverItemOf n, routerItemOf n]

/-- What the entrypoint takes from dependencies. -/
def foreignItems : List Symbol := [tcpListener, serve]

variable {d : Descriptor}

theorem dependencyCrates_eq (d : Descriptor) :
    d.dependencyCrates = ["std", "axum", "tokio", "tower"] := by
  have hpinned : PinnedDependency.all.map (fun p => Naming.crateIdent p.name) =
      ["axum", "tokio", "tower"] := by
    simp [PinnedDependency.all, Naming.crateIdent]
  rw [Descriptor.dependencyCrates, Descriptor.manifest, List.map_map]
  exact congrArg ("std" :: ·) hpinned

theorem crate_ownItems {n : Names} (hn : n.Legal) {s : Symbol} (hs : s ∈ ownItems n) :
    s.crate = n.crate := by
  rcases List.mem_pair.mp hs with rfl | rfl
  · exact Symbol.crate_of_isIdentifier hn.crate _
  · have hmodule := Symbol.crate_of_module hn.crate "gen::bootstrap" routerType
    rwa [String.append_assoc] at hmodule

theorem map_crate_foreignItems : foreignItems.map Symbol.crate = ["tokio", "axum"] := by
  simp [foreignItems, Symbol.crate, tcpListener, serve, Text.splitPath, Text.pathPieces]

/-- The items stand apart as soon as the crate does, since each side is told by its crates. -/
theorem items_apart_iff {n : Names} (hn : n.Legal) :
    (∀ s ∈ ownItems n, ∀ t ∈ foreignItems, s.crate ≠ t.crate) ↔ n.crate ∉ ["tokio", "axum"] := by
  rw [← map_crate_foreignItems, List.mem_map, not_exists]
  constructor
  · rintro h t ⟨ht, heq⟩
    have hserver : serverItemOf n ∈ ownItems n := List.mem_cons_self
    exact h _ hserver t ht ((crate_ownItems hn hserver).trans heq.symm)
  · intro h s hs t ht heq
    exact h t ⟨ht, heq.symm.trans (crate_ownItems hn hs)⟩

/-- With a valid project name, the entrypoint speaks of two items of the crate of the project and of
two of dependencies. The crate is told apart from all that it depends on unless the project is
called like one of them, and so are the items unless it is called like one of the two that the
entrypoint uses. -/
theorem crate_is_apart_iff (d : Descriptor) (h : Naming.isProjectName d.info.name = true) :
    let n := Names.ofProject d.info.name
    (∀ s, s ∈ (entrypoint d).imports.symbols ↔ s ∈ ownItems n ∨ s ∈ foreignItems) ∧
    (∀ s ∈ ownItems n, s.crate = n.crate) ∧
    (∀ s ∈ foreignItems, s.crate ∈ d.dependencyCrates) ∧
    (n.crate ∉ d.dependencyCrates ↔ d.info.name ∉ ["std", "axum", "tokio", "tower"]) ∧
    ((∀ s ∈ ownItems n, ∀ t ∈ foreignItems, s.crate ≠ t.crate) ↔
      d.info.name ∉ ["tokio", "axum"]) := by
  intro n
  have hn : n.Legal := Names.legal_ofProject h
  refine ⟨fun s => ?_, fun s hs => crate_ownItems hn hs, ?_, ?_, ?_⟩
  · simp [entrypoint, File.ofNoted, Noted.symbols, mainFunction, ownItems, foreignItems, n,
      or_assoc, or_left_comm]
  · rw [← List.forall_mem_map (f := Symbol.crate) (P := (· ∈ d.dependencyCrates)),
      map_crate_foreignItems, dependencyCrates_eq]
    decide
  · rw [dependencyCrates_eq]
    exact not_congr (Naming.crateIdent_mem_iff (by decide))
  · rw [items_apart_iff hn]
    exact not_congr (Naming.crateIdent_mem_iff (by decide))

theorem dashed_crate_is_apart :
    let d := Descriptor.base { name := "axum-fleet" }
    Naming.isProjectName d.info.name = true ∧
      (Names.ofProject d.info.name).crate ∉ d.dependencyCrates ∧
      ∀ s ∈ ownItems (Names.ofProject d.info.name), ∀ t ∈ foreignItems, s.crate ≠ t.crate := by
  intro d
  have hname : Naming.isProjectName d.info.name = true := by decide
  obtain ⟨-, -, -, hcrate, hitems⟩ := crate_is_apart_iff d hname
  exact ⟨hname, hcrate.mpr (by decide), hitems.mpr (by decide)⟩

/-- A project with a valid name whose entrypoint takes its own items and those of a dependency from
crates of one name. -/
theorem axum_crate_is_called_like_dependency :
    let d := Descriptor.base { name := "axum" }
    d.Reachable ∧ Naming.isProjectName d.info.name = true ∧
      "axum" ∈ d.manifest.dependencies.map Prod.fst ∧
      (Names.ofProject d.info.name).crate = Naming.crateIdent "axum" ∧
      (∃ s ∈ ownItems (Names.ofProject d.info.name), ∃ t ∈ foreignItems, s.crate = t.crate) ∧
      (ownItems (Names.ofProject d.info.name) ++ foreignItems).map Symbol.fullPath =
        ["axum::Server", "axum::gen::bootstrap::Service", "tokio::net::TcpListener",
          "axum::serve"] := by
  intro d
  refine ⟨.base _, by decide, by decide, by decide, ?_, by decide⟩
  exact ⟨_, List.mem_cons_self, serve, by decide, by decide⟩

end Service

end Scaffold
