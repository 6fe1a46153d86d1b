import Scaffold.Proofs.Nodes

/-!
Which files have a text, told from the tree alone: the names in it are fit for their positions, the
symbols in it are registered, and no list of members repeats a name. A file that has no text is
refused for a defect that it has.
-/

namespace Scaffold.Source

namespace File

/-- The name stands where an identifier must: in an item, or as what a symbol is exported under. -/
def HasIdentifier (f : File) (name : String) : Prop :=
  (∃ s ∈ f.imports.symbols, s.name = name) ∨ ∃ n, f.Holds n ∧ name ∈ n.identifiers

/-- The name stands where a path must: in an item, or as the module of a symbol. -/
def HasPath (f : File) (path : String) : Prop :=
  (∃ s ∈ f.imports.symbols, s.path = path) ∨ ∃ n, f.Holds n ∧ path ∈ n.paths

/-- The file lists the members somewhere in its items, as those of the owner. -/
def Lists (f : File) (owner : String) (members : List String) : Prop :=
  ∃ n, f.Holds n ∧ n.members? = some members ∧ n.owner f.speaker = owner

/-- Every name is fit for its position, every symbol is registered, and the members of one node
have names of their own. None of this depends on the text of the file. -/
structure WellFormed (f : File) : Prop where
  identifiers : ∀ name, f.HasIdentifier name → Naming.isIdentifier name = true
  paths : ∀ path, f.HasPath path → Naming.isPath path = true
  registered : ∀ s, f.SpeaksOf s → s ∈ f.imports.symbols
  distinct : ∀ n members, f.Holds n → n.members? = some members → members.Nodup

/-- The defect is one of the file. -/
def Shows (f : File) : RenderError → Prop
  | .unregisteredSymbol fullPath =>
    ∃ s, f.SpeaksOf s ∧ s ∉ f.imports.symbols ∧ s.fullPath = fullPath
  | .invalidIdentifier name =>
    f.HasIdentifier name ∧ Naming.isIdentifier name = false ∨
      f.HasPath name ∧ Naming.isPath name = false
  | .duplicateMember owner member =>
    ∃ members, f.Lists owner members ∧ 2 ≤ members.count member

variable (f : File)

theorem mem_requirements_iff (q : Requirement) :
    q ∈ f.requirements ↔
      (∃ s ∈ f.imports.symbols, q = .path s.path ∨ q = .identifier s.name) ∨
        ∃ n, f.Holds n ∧ q ∈ n.own f.speaker := by
  simp [requirements, mem_itemRequirements_iff_holds]

theorem identifier_mem_requirements_iff (name : String) :
    .identifier name ∈ f.requirements ↔ f.HasIdentifier name := by
  simp [mem_requirements_iff, Node.mem_own_iff, HasIdentifier, eq_comm]

theorem path_mem_requirements_iff (path : String) :
    .path path ∈ f.requirements ↔ f.HasPath path := by
  simp [mem_requirements_iff, Node.mem_own_iff, HasPath, eq_comm]

theorem registered_mem_requirements_iff (s : Symbol) :
    .registered s ∈ f.requirements ↔ f.SpeaksOf s := by
  simp [mem_requirements_iff, Node.mem_own_iff, SpeaksOf]

theorem distinct_mem_requirements_iff (owner : String) (members : List String) :
    .distinct owner members ∈ f.requirements ↔ f.Lists owner members := by
  simp [mem_requirements_iff, Node.mem_own_iff, Lists]

theorem wellFormed_iff : f.WellFormed ↔ Met f.imports f.requirements := by
  constructor
  · intro h q hq
    cases q with
    | identifier name =>
      have hname := h.identifiers name ((f.identifier_mem_requirements_iff name).mp hq)
      simp [Requirement.defect?, hname]
    | path path =>
      have hpath := h.paths path ((f.path_mem_requirements_iff path).mp hq)
      simp [Requirement.defect?, hpath]
    | registered s =>
      have hs := h.registered s ((f.registered_mem_requirements_iff s).mp hq)
      simp [Requirement.defect?, hs]
    | distinct owner members =>
      obtain ⟨n, hn, hmembers, -⟩ := (f.distinct_mem_requirements_iff owner members).mp hq
      simp [Requirement.defect?, firstRepeat?_eq_none_iff, h.distinct n members hn hmembers]
  · intro h
    refine ⟨fun name hname => ?_, fun path hpath => ?_, fun s hs => ?_, fun n members hn hmem => ?_⟩
    · have hmet := h _ ((f.identifier_mem_requirements_iff name).mpr hname)
      simpa [Requirement.defect?] using hmet
    · have hmet := h _ ((f.path_mem_requirements_iff path).mpr hpath)
      simpa [Requirement.defect?] using hmet
    · have hmet := h _ ((f.registered_mem_requirements_iff s).mpr hs)
      simpa [Requirement.defect?] using hmet
    · have hmet := h _ ((f.distinct_mem_requirements_iff _ members).mpr ⟨n, hn, hmem, rfl⟩)
      simpa [Requirement.defect?, firstRepeat?_eq_none_iff] using hmet

/-- A requirement that is not met tells a defect of the file. -/
theorem shows_of_defect? {q : Requirement} {e : RenderError} (hq : q ∈ f.requirements)
    (he : q.defect? f.imports = some e) : f.Shows e := by
  cases q with
  | identifier name =>
    obtain ⟨hname, rfl⟩ : Naming.isIdentifier name = false ∧ .invalidIdentifier name = e := by
      simpa [Requirement.defect?] using he
    exact .inl ⟨(f.identifier_mem_requirements_iff name).mp hq, hname⟩
  | path path =>
    obtain ⟨hpath, rfl⟩ : Naming.isPath path = false ∧ .invalidIdentifier path = e := by
      simpa [Requirement.defect?] using he
    exact .inr ⟨(f.path_mem_requirements_iff path).mp hq, hpath⟩
  | registered s =>
    obtain ⟨hs, rfl⟩ : s ∉ f.imports.symbols ∧ .unregisteredSymbol s.fullPath = e := by
      simpa [Requirement.defect?] using he
    exact ⟨s, (f.registered_mem_requirements_iff s).mp hq, hs, rfl⟩
  | distinct owner members =>
    obtain ⟨member, hmember, rfl⟩ := Option.map_eq_some_iff.mp he
    exact ⟨members, (f.distinct_mem_requirements_iff owner members).mp hq,
      two_le_count_of_firstRepeat? hmember⟩

/-- A file has a text exactly if it is well formed, and one that is refused shows the defect that it
is refused for. -/
theorem has_text_iff_wellFormed :
    ((∃ text, f.render = .ok text) ↔ f.WellFormed) ∧ ∀ e, f.render = .error e → f.Shows e := by
  refine ⟨f.render_ok_iff.trans f.wellFormed_iff.symm, fun e he => ?_⟩
  have hdefect : f.defect? = some e := by
    unfold render at he
    split at he
    · next hsome => rw [hsome, Except.error.inj he]
    · cases he
  obtain ⟨q, hq, hqe⟩ := List.exists_of_findSome?_eq_some hdefect
  exact f.shows_of_defect? hq hqe

/-- A module with a function whose loop answers with a record of two fields. -/
def echoFile (first second : String) : File :=
  let reply : Expr := .record (.plain "Reply") [(first, .path "body"), (second, .path "call")]
  let answer : Expr := .choose (.path "call")
    [{ variant := "Some", binding := some "body", body := reply }]
  { items := [.submodule [] true "gen" (some
      [.function
        { signature := { name := "echo" }
          body := [.loop "call" (.path "calls") [.result answer]] }])] }

theorem echoFile_has_text_or_shows_defect :
    (∃ text, (echoFile "body" "call").render = .ok text) ∧ (echoFile "body" "call").WellFormed ∧
    (echoFile "body" "body").render = .error (.duplicateMember "Reply" "body") ∧
    (echoFile "body" "body").Shows (.duplicateMember "Reply" "body") := by
  have hfit : (echoFile "body" "call").defect? = none := by decide +kernel
  have htext : ∃ text, (echoFile "body" "call").render = .ok text := by
    rw [render, hfit]
    exact ⟨_, rfl⟩
  have hrepeat : (echoFile "body" "body").defect? = some (.duplicateMember "Reply" "body") := by
    decide +kernel
  have herror : (echoFile "body" "body").render = .error (.duplicateMember "Reply" "body") := by
    rw [render, hrepeat]
  exact ⟨htext, (has_text_iff_wellFormed _).1.mp htext, herror,
    (has_text_iff_wellFormed _).2 _ herror⟩

end File

end Scaffold.Source
