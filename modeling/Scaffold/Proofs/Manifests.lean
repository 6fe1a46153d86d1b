import Scaffold.Manifest.Pinned
import Scaffold.Proofs.TomlDocuments
import Scaffold.Proofs.TomlTables

/-!
The manifest that a TOML document denotes. Each table may have the keys that are known for it and no
others, so nothing of a document is passed over. What a manifest was written as denotes it.
-/

namespace Scaffold

open Toml

def textOf? : Option Toml.Node → Option String
  | some (.value (.text s)) => some s
  | _ => none

def textsOf? : Option Toml.Node → Option (List String)
  | some (.value (.texts items)) => some items
  | _ => none

def tableOf? : Option Toml.Node → Option Members
  | some (.table _ ms) => some ms
  | _ => none

/-- The table, if it has no other key. -/
def only? (known : List String) (ms : Members) : Option Members :=
  if ms.all fun m => known.contains m.1 then some ms else none

def Package.ofMembers? (ms : Members) : Option Package := do
  let ms ← only? ["name", "version", "edition", "description"] ms
  let name ← textOf? (ms.lookup "name")
  let version ← textOf? (ms.lookup "version")
  let edition ← textOf? (ms.lookup "edition")
  match ms.lookup "description" with
  | none => some { name, version, edition }
  | some node => do
    let description ← textOf? (some node)
    some { name, version, edition, description }

def Binary.ofMembers? (ms : Members) : Option Binary := do
  let ms ← only? ["name", "path"] ms
  let name ← textOf? (ms.lookup "name")
  let path ← textOf? (ms.lookup "path")
  some { name, path }

def Dependency.ofNode? : Toml.Node → Option Dependency
  | .value (.text v) => some (.version v)
  | .table _ ms => do
    let ms ← only? ["version", "features"] ms
    let v ← textOf? (ms.lookup "version")
    let features ← textsOf? (ms.lookup "features")
    some (.featured v features)
  | _ => none

namespace Manifest

def libraryPathOf? (ms : Members) : Option String := do
  let ms ← only? ["path"] ms
  textOf? (ms.lookup "path")

/-- An array of tables, or an empty array. -/
def binariesOf? : Option Toml.Node → Option (List Binary)
  | some (.value (.texts [])) => some []
  | some (.tables elements) => elements.mapM Binary.ofMembers?
  | _ => none

def dependenciesOf? (ms : Members) : Option (List (String × Dependency)) :=
  ms.mapM fun m => (Dependency.ofNode? m.2).map fun d => (m.1, d)

/-- Each entry at its place by its name. -/
def sorted (ds : List (String × Dependency)) : List (String × Dependency) :=
  ds.foldl (fun ds d => insertDependency d.1 d.2 ds) []

def ofMembers? (ms : Members) : Option Manifest := do
  let ms ← only? ["package", "lib", "bin", "dependencies"] ms
  let package ← (tableOf? (ms.lookup "package")).bind Package.ofMembers?
  let libraryPath ← (tableOf? (ms.lookup "lib")).bind libraryPathOf?
  let binaries ← binariesOf? (ms.lookup "bin")
  let dependencies ← (tableOf? (ms.lookup "dependencies")).bind dependenciesOf?
  some { package, libraryPath, binaries, dependencies := sorted dependencies }

/-- The manifest that a text denotes as a TOML document. -/
def ofText? (text : String) : Option Manifest :=
  (document? text).bind fun sections => (root? sections).bind ofMembers?

/-- By name, and each name once. -/
def ByName (ds : List (String × Dependency)) : Prop := ds.Pairwise fun d e => d.1 < e.1

instance : DecidablePred ByName := fun ds =>
  inferInstanceAs (Decidable (ds.Pairwise fun d e => d.1 < e.1))

theorem ByName.nodup {ds : List (String × Dependency)} (h : ByName ds) :
    (ds.map (·.1)).Nodup := by
  refine List.pairwise_map.mpr (h.imp ?_)
  intro d e hless heq
  exact String.lt_irrefl _ (heq ▸ hless)

theorem insertDependency_perm {name : String} {ds : List (String × Dependency)}
    (h : name ∉ ds.map (·.1)) (d : Dependency) :
    (insertDependency name d ds).Perm ((name, d) :: ds) := by
  induction ds with
  | nil => exact .refl _
  | cons e ds ih =>
    obtain ⟨hne, hrest⟩ : name ≠ e.1 ∧ name ∉ ds.map (·.1) := by simpa using h
    rw [insertDependency, if_neg hne]
    split
    · exact ((ih hrest).cons e).trans (.swap _ _ _)
    · exact .refl _

theorem mem_insertDependency {name : String} {d : Dependency} {e : String × Dependency}
    {ds : List (String × Dependency)} (h : e ∈ insertDependency name d ds) :
    e = (name, d) ∨ e ∈ ds := by
  induction ds with
  | nil => simpa [insertDependency] using h
  | cons first ds ih =>
    rw [insertDependency] at h
    split at h
    · exact (List.mem_cons.mp h).imp_right (List.mem_cons_of_mem _)
    · split at h
      · rcases List.mem_cons.mp h with rfl | h
        · exact .inr List.mem_cons_self
        · exact (ih h).imp_right (List.mem_cons_of_mem _)
      · exact List.mem_cons.mp h

theorem byName_insertDependency {ds : List (String × Dependency)} (h : ByName ds) (name : String)
    (d : Dependency) : ByName (insertDependency name d ds) := by
  induction ds with
  | nil => exact List.pairwise_singleton _ _
  | cons first ds ih =>
    obtain ⟨hfirst, hrest⟩ := List.pairwise_cons.mp h
    rw [insertDependency]
    split
    · next heq => exact List.pairwise_cons.mpr ⟨fun e he => heq ▸ hfirst e he, hrest⟩
    · next hne =>
      split
      · next hless =>
        refine List.pairwise_cons.mpr ⟨fun e he => ?_, ih hrest⟩
        rcases mem_insertDependency he with rfl | he
        · exact hless
        · exact hfirst e he
      · next hnot =>
        have hless : name < first.1 := by
          by_contra hback
          exact hne (String.le_antisymm (String.not_lt.mp hnot) (String.not_lt.mp hback))
        refine List.pairwise_cons.mpr ⟨fun e he => ?_, h⟩
        rcases List.mem_cons.mp he with rfl | he
        · exact hless
        · exact String.lt_trans hless (hfirst e he)

/-- Dependencies with new names, put in one by one, are all there and by name. -/
theorem foldl_insertDependency {es acc : List (String × Dependency)}
    (hnodup : ((acc ++ es).map (·.1)).Nodup) (hacc : ByName acc) :
    (es.foldl (fun ds d => insertDependency d.1 d.2 ds) acc).Perm (acc ++ es) ∧
      ByName (es.foldl (fun ds d => insertDependency d.1 d.2 ds) acc) := by
  induction es generalizing acc with
  | nil => exact ⟨by simp, hacc⟩
  | cons e es ih =>
    have hnew : e.1 ∉ acc.map (·.1) := by
      rw [List.map_append, List.map_cons] at hnodup
      exact fun hmem => (List.nodup_append.mp hnodup).2.2 _ hmem _ List.mem_cons_self rfl
    have hpart : (insertDependency e.1 e.2 acc ++ es).Perm (acc ++ e :: es) :=
      ((insertDependency_perm hnew e.2).append_right es).trans List.perm_middle.symm
    obtain ⟨hsame, hby⟩ :=
      ih ((hpart.map _).nodup_iff.mpr hnodup) (byName_insertDependency hacc e.1 e.2)
    exact ⟨hsame.trans hpart, hby⟩

/-- Dependencies in any order are those by name again. -/
theorem sorted_eq {ds es : List (String × Dependency)} (h : ByName ds) (hperm : es.Perm ds) :
    sorted es = ds := by
  have hnodup : ((([] : List (String × Dependency)) ++ es).map (·.1)).Nodup :=
     (hperm.map _).nodup_iff.mpr h.nodup
  obtain ⟨hsame, hby⟩ := foldl_insertDependency hnodup List.Pairwise.nil
  refine (hsame.trans hperm).eq_of_pairwise (fun d e _ _ hde hed => ?_) hby h
  exact absurd (String.lt_trans hde hed) (String.lt_irrefl _)

/-- The table of a dependency with features. -/
def featuredEntries? : String × Dependency → Option (String × List (String × Value))
  | (_, .version _) => none
  | (name, .featured v features) =>
    some (name, [("version", .text v), ("features", .texts features)])

/-- The members of the table of dependencies: those with versions alone stand first. -/
def dependencyMembers (ds : List (String × Dependency)) : Members :=
  members (ds.filterMap versionOnly?) ++
    (ds.filterMap featuredEntries?).map fun t => (t.1, .table true (members t.2))

theorem filterMap_featuredSection? (ds : List (String × Dependency)) :
    ds.filterMap featuredSection? =
      (ds.filterMap featuredEntries?).map fun t => ⟨.table ["dependencies", t.1], t.2⟩ := by
  rw [List.map_filterMap]
  congr 1
  funext d
  obtain ⟨name, v | ⟨v, features⟩⟩ := d <;> rfl

section FilterMap

variable {α β γ : Type} {g : α → Option β}

/-- What a partial map gives is read back where each of its values is. -/
theorem mapM_filterMap {f : β → Option α} (h : ∀ a b, g a = some b → f b = some a)
    (as : List α) : (as.filterMap g).mapM f = some (as.filter fun a => (g a).isSome) := by
  induction as with
  | nil => rfl
  | cons a as ih =>
    cases hg : g a with
    | none => simp [hg, ih]
    | some b => simp [hg, h a b hg, ih]

theorem map_filterMap_eq {f : β → γ} {k : α → γ} (h : ∀ a b, g a = some b → f b = k a)
    (as : List α) : (as.filterMap g).map f = (as.filter fun a => (g a).isSome).map k := by
  induction as with
  | nil => rfl
  | cons a as ih =>
    cases hg : g a with
    | none => simp [hg, ih]
    | some b => simp [hg, h a b hg, ih]

end FilterMap

/-- A dependency has a version alone or a table of its own. -/
theorem isSome_featuredEntries? (d : String × Dependency) :
    (featuredEntries? d).isSome = !(versionOnly? d).isSome := by
  obtain ⟨name, v | ⟨v, features⟩⟩ := d <;> rfl

/-- Those with versions alone in front of those with features, each with its own name. -/
theorem perm_versions_featured (ds : List (String × Dependency)) :
    ((ds.filter fun d => (versionOnly? d).isSome) ++
      ds.filter fun d => (featuredEntries? d).isSome).Perm ds := by
  simp only [isSome_featuredEntries?]
  exact List.filter_append_perm _ ds

theorem nodup_dependencyMembers {ds : List (String × Dependency)} (h : ByName ds) :
    ((ds.filterMap versionOnly?).map (·.1) ++
      (ds.filterMap featuredEntries?).map (·.1)).Nodup := by
  have hversion : ∀ (d : String × Dependency) (e : String × Value),
      versionOnly? d = some e → e.1 = d.1 := by
    rintro ⟨name, v | ⟨v, features⟩⟩ e he <;> cases he
    rfl
  have hfeatured : ∀ (d : String × Dependency) (t : String × List (String × Value)),
      featuredEntries? d = some t → t.1 = d.1 := by
    rintro ⟨name, v | ⟨v, features⟩⟩ t ht <;> cases ht
    rfl
  rw [map_filterMap_eq hversion, map_filterMap_eq hfeatured, ← List.map_append]
  exact ((perm_versions_featured ds).map _).nodup_iff.mpr h.nodup

/-- The dependencies of a table of dependencies are read back, if not in their order. -/
theorem dependenciesOf?_dependencyMembers (ds : List (String × Dependency)) :
    ∃ es, dependenciesOf? (dependencyMembers ds) = some es ∧ es.Perm ds := by
  have hversions : dependenciesOf? (members (ds.filterMap versionOnly?)) =
      some (ds.filter fun d => (versionOnly? d).isSome) := by
    rw [dependenciesOf?, members, List.mapM_map]
    refine mapM_filterMap ?_ ds
    rintro ⟨name, v | ⟨v, features⟩⟩ e he <;> cases he
    rfl
  have hfeatured : dependenciesOf?
      ((ds.filterMap featuredEntries?).map fun t => (t.1, .table true (members t.2))) =
        some (ds.filter fun d => (featuredEntries? d).isSome) := by
    rw [dependenciesOf?, List.mapM_map]
    refine mapM_filterMap ?_ ds
    rintro ⟨name, v | ⟨v, features⟩⟩ t ht <;> cases ht
    rfl
  refine ⟨_, ?_, perm_versions_featured ds⟩
  simp only [dependenciesOf?] at hversions hfeatured ⊢
  rw [dependencyMembers, List.mapM_append, hversions, hfeatured]
  rfl

/-- What stands in front of the first heading. -/
def rootEntries (binaries : List Binary) : List (String × Value) :=
  if binaries.isEmpty then [("bin", .texts [])] else []

/-- The sections with a heading. -/
def namedSections (m : Manifest) : List Section :=
  [packageSection m.package, librarySection m.libraryPath] ++ m.binaries.map binarySection ++
    dependencySections m.dependencies

theorem named_namedSections (m : Manifest) : ∀ s ∈ m.namedSections, s.heading.Named := by
  have hbinary : ∀ s ∈ m.binaries.map binarySection, s.heading.Named := by
    intro s hs
    obtain ⟨b, -, rfl⟩ := List.mem_map.mp hs
    exact List.cons_ne_nil _ _
  have hdependency : ∀ s ∈ dependencySections m.dependencies, s.heading.Named := by
    intro s hs
    rw [dependencySections, List.mem_append, filterMap_featuredSection?] at hs
    rcases hs with hs | hs
    · split at hs
      · cases hs
      · rw [List.mem_singleton.mp hs]
        exact List.cons_ne_nil _ _
    · obtain ⟨t, -, rfl⟩ := List.mem_map.mp hs
      exact List.cons_ne_nil _ _
  intro s hs
  simp only [namedSections, List.mem_append, List.mem_cons, List.not_mem_nil, or_false] at hs
  rcases hs with ((rfl | rfl) | hs) | hs
  · exact List.cons_ne_nil _ _
  · exact List.cons_ne_nil _ _
  · exact hbinary s hs
  · exact hdependency s hs

/-- The written sections tell the entries of the root and then those with a heading. -/
theorem tells_sections (m : Manifest) :
    Tells (Toml.render m.sections).toList
      (Section.statements ⟨.root, rootEntries m.binaries⟩ ++
        m.namedSections.flatMap Section.statements) := by
  have hnamed : ∀ s ∈ m.namedSections, s.heading = .root ∨ s.heading.Named := fun s hs =>
    .inr (m.named_namedSections s hs)
  have hsections : m.sections = rootSections m.binaries ++ m.namedSections := by
    simp only [sections, namedSections, List.append_assoc]
  rw [hsections, rootSections, rootEntries]
  cases m.binaries.isEmpty with
  | true => exact tells_render (List.forall_mem_cons.mpr ⟨.inl rfl, hnamed⟩)
  | false => exact tells_render hnamed

/-- The table up to its library. -/
def frontMembers (m : Manifest) : Members :=
  members (rootEntries m.binaries) ++
    [("package", .table true (members (packageSection m.package).entries)),
      ("lib", .table true (members (librarySection m.libraryPath).entries))]

def binaryMembers (binaries : List Binary) : Members :=
  if binaries.isEmpty then []
  else [("bin", .tables (binaries.map fun b => members (binarySection b).entries))]

/-- The table of a manifest. -/
def membersOf (m : Manifest) (isDefined : Bool) : Members :=
  m.frontMembers ++ binaryMembers m.binaries ++
    [("dependencies", .table isDefined (dependencyMembers m.dependencies))]

theorem nodup_packageSection (p : Package) : ((packageSection p).entries.map (·.1)).Nodup := by
  obtain ⟨name, version, edition, _ | d⟩ := p <;> simp [packageSection]

theorem foldlM_binaries {ms : Members} {binaries : List Binary}
    (hnew : binaries ≠ [] → ms.lookup "bin" = none) :
    (binaries.map binarySection).foldlM addSection? ms =
      some (ms ++ binaryMembers binaries) := by
  cases binaries with
  | nil => simp [binaryMembers]
  | cons b bs =>
    have hkeys : ∀ b, ((binarySection b).entries.map (·.1)).Nodup := by simp [binarySection]
    have hfresh := hnew (List.cons_ne_nil b bs)
    have hfirst : addSection? ms (binarySection b) =
        some (ms ++ [("bin", .tables [members (binarySection b).entries])]) :=
      addSection?_element hfresh (hkeys b)
    rw [List.map_cons, List.foldlM_cons, hfirst, Option.bind_eq_bind, Option.bind_some]
    exact foldlM_elements hkeys hfresh [members (binarySection b).entries] bs

theorem foldlM_dependencySections {ms : Members} {ds : List (String × Dependency)}
    (hnew : ms.lookup "dependencies" = none) (h : ByName ds) :
    ∃ isDefined, (dependencySections ds).foldlM addSection? ms =
      some (ms ++ [("dependencies", .table isDefined (dependencyMembers ds))]) := by
  have hnames := nodup_dependencyMembers h
  have hkeys : ∀ t ∈ ds.filterMap featuredEntries?, (t.2.map (·.1)).Nodup := by
    intro t ht
    obtain ⟨⟨name, v | ⟨v, features⟩⟩, -, heq⟩ := List.mem_filterMap.mp ht <;> cases heq
    simp
  rw [dependencySections, filterMap_featuredSection?, dependencyMembers]
  generalize ds.filterMap versionOnly? = versions at hnames ⊢
  generalize ds.filterMap featuredEntries? = featured at hnames hkeys ⊢
  by_cases hleft : versions.isEmpty = true ∧ featured ≠ []
  · -- the table of dependencies is known from the headings of its parts only
    obtain rfl := List.isEmpty_iff.mp hleft.1
    obtain ⟨t, ts, rfl⟩ := List.exists_cons_of_ne_nil hleft.2
    obtain ⟨ht, hts⟩ := List.forall_mem_cons.mp hkeys
    refine ⟨false, ?_⟩
    have hfirst := addSection?_subtable hnew t.1 ht
    have hrest := foldlM_subtables hnew false [(t.1, .table true (members t.2))]
      (by simpa using hnames) hts
    simp only [List.isEmpty_nil, List.map_cons, List.isEmpty_cons, Bool.not_false, Bool.and_self,
      if_true, List.nil_append, List.foldlM_cons, hfirst, Option.bind_eq_bind, Option.bind_some]
    exact hrest
  · refine ⟨true, ?_⟩
    have hdefined : (versions.isEmpty && !(featured.map fun t =>
        (⟨.table ["dependencies", t.1], t.2⟩ : Section)).isEmpty) = false := by
      simpa using hleft
    have hfirst := addSection?_table hnew (List.nodup_append.mp hnames).1
    have hrest := foldlM_subtables hnew true (members versions)
      (by rwa [map_fst_members]) hkeys
    rw [hdefined, if_neg (by decide), List.foldlM_append, List.foldlM_cons, hfirst]
    simpa using hrest

theorem foldlM_front (m : Manifest) :
    [⟨.root, rootEntries m.binaries⟩, packageSection m.package,
      librarySection m.libraryPath].foldlM addSection? [] = some m.frontMembers := by
  obtain ⟨p, path, binaries, ds⟩ := m
  have hroot : addSection? [] ⟨.root, rootEntries binaries⟩ =
      some (members (rootEntries binaries)) := by
    cases binaries <;> rfl
  have hpackage : addSection? (members (rootEntries binaries)) (packageSection p) =
      some (members (rootEntries binaries) ++
        [("package", .table true (members (packageSection p).entries))]) :=
    addSection?_table (by cases binaries <;> rfl) (nodup_packageSection p)
  have hlibrary : addSection? (members (rootEntries binaries) ++
      [("package", .table true (members (packageSection p).entries))]) (librarySection path) =
        some (members (rootEntries binaries) ++
          [("package", .table true (members (packageSection p).entries))] ++
          [("lib", .table true (members (librarySection path).entries))]) :=
    addSection?_table (by cases binaries <;> rfl) (List.nodup_singleton _)
  simp only [List.foldlM_cons, List.foldlM_nil, hroot, hpackage, hlibrary, Option.bind_eq_bind,
    Option.bind_some]
  simp [frontMembers]

/-- The sections of a manifest make its table, one after the other. -/
theorem root?_sections (m : Manifest) (h : ByName m.dependencies) :
    ∃ isDefined, root? (⟨.root, rootEntries m.binaries⟩ :: m.namedSections) =
      some (m.membersOf isDefined) := by
  have hbinNew : m.binaries ≠ [] → m.frontMembers.lookup "bin" = none := by
    rw [frontMembers]
    cases m.binaries with
    | nil => exact fun hne => absurd rfl hne
    | cons b bs => exact fun _ => rfl
  have hdependenciesNew :
      (m.frontMembers ++ binaryMembers m.binaries).lookup "dependencies" = none := by
    rw [frontMembers]
    cases m.binaries <;> rfl
  obtain ⟨isDefined, hdependencies⟩ := foldlM_dependencySections hdependenciesNew h
  have hsplit : (⟨.root, rootEntries m.binaries⟩ :: m.namedSections : List Section) =
      [⟨.root, rootEntries m.binaries⟩, packageSection m.package, librarySection m.libraryPath] ++
        (m.binaries.map binarySection ++ dependencySections m.dependencies) := by
    simp [namedSections]
  refine ⟨isDefined, ?_⟩
  rw [hsplit, root?, List.foldlM_append, foldlM_front, Option.bind_eq_bind, Option.bind_some,
    List.foldlM_append, foldlM_binaries hbinNew, Option.bind_eq_bind, Option.bind_some,
    hdependencies]
  rfl

theorem ofMembers?_packageSection (p : Package) :
    Package.ofMembers? (members (packageSection p).entries) = some p := by
  obtain ⟨name, version, edition, _ | d⟩ := p <;> rfl

theorem mapM_binaries (binaries : List Binary) :
    (binaries.map fun b => members (binarySection b).entries).mapM Binary.ofMembers? =
      some binaries := by
  induction binaries with
  | nil => rfl
  | cons b bs ih =>
    have hb : Binary.ofMembers? (members (binarySection b).entries) = some b := rfl
    rw [List.map_cons, List.mapM_cons, hb, ih]
    rfl

/-- The four parts of the table, and nothing else. -/
theorem membersOf_parts (m : Manifest) (isDefined : Bool) :
    only? ["package", "lib", "bin", "dependencies"] (m.membersOf isDefined) =
        some (m.membersOf isDefined) ∧
      tableOf? ((m.membersOf isDefined).lookup "package") =
        some (members (packageSection m.package).entries) ∧
      tableOf? ((m.membersOf isDefined).lookup "lib") =
        some (members (librarySection m.libraryPath).entries) ∧
      binariesOf? ((m.membersOf isDefined).lookup "bin") = some m.binaries ∧
      tableOf? ((m.membersOf isDefined).lookup "dependencies") =
        some (dependencyMembers m.dependencies) := by
  obtain ⟨p, path, binaries, ds⟩ := m
  have hbinaries := mapM_binaries binaries
  cases binaries with
  | nil => exact ⟨rfl, rfl, rfl, rfl, rfl⟩
  | cons b bs => exact ⟨rfl, rfl, rfl, hbinaries, rfl⟩

/-- The table of a manifest denotes it. -/
theorem ofMembers?_membersOf (m : Manifest) (h : ByName m.dependencies) (isDefined : Bool) :
    ofMembers? (m.membersOf isDefined) = some m := by
  obtain ⟨honly, hpackage, hlib, hbin, hdependencies⟩ := m.membersOf_parts isDefined
  obtain ⟨es, hes, hperm⟩ := dependenciesOf?_dependencyMembers m.dependencies
  have hlibrary : libraryPathOf? (members (librarySection m.libraryPath).entries) =
      some m.libraryPath := rfl
  simp only [ofMembers?, honly, hpackage, hlib, hbin, hdependencies, hes, hlibrary,
    ofMembers?_packageSection, sorted_eq h hperm, Option.bind_eq_bind, Option.bind_some]

/-- A document that tells the sections of a manifest denotes the manifest. -/
theorem ofText?_of_tells (m : Manifest) (h : ByName m.dependencies) {text : String}
    (htells : Tells text.toList (Section.statements ⟨.root, rootEntries m.binaries⟩ ++
      m.namedSections.flatMap Section.statements)) :
    ofText? text = some m := by
  obtain ⟨isDefined, hroot⟩ := m.root?_sections h
  rw [ofText?, document?_eq htells m.named_namedSections, Option.bind_some, hroot,
    Option.bind_some, m.ofMembers?_membersOf h]

theorem tells_header : Tells (header ++ "\n\n").toList [] := by
  have htext : (header ++ "\n\n").toList = '#' :: header.toList.tail ++ ['\n'] ++ ['\n'] := by
    simp [header]
  rw [htext]
  exact (tells_comment (List.all_eq_true.mp (by decide))).append tells_newline

/-- A written manifest is its header, an empty line and a document that denotes the manifest: its
package with or without a description, its library, its binaries in their order and its
dependencies, and nothing else. The whole text denotes it too. -/
theorem render_denotes (m : Manifest) (h : ByName m.dependencies) :
    (∃ document, m.render = header ++ "\n\n" ++ document ∧ ofText? document = some m) ∧
      '\n' ∉ header.toList ∧ ofText? m.render = some m := by
  have hwhole : Tells m.render.toList (Section.statements ⟨.root, rootEntries m.binaries⟩ ++
      m.namedSections.flatMap Section.statements) := by
    rw [render, String.toList_append]
    exact tells_header.append m.tells_sections
  exact ⟨⟨_, rfl, m.ofText?_of_tells h m.tells_sections⟩, by decide, m.ofText?_of_tells h hwhole⟩

/-- Every form of quoting, keys that are no words, and dependencies of both kinds. -/
def oddManifest : Manifest where
  package :=
    { name := "a\"b", version := "1\\'", edition := "\"\"\"\"'''"
      description := some "two\nlines\"" }
  libraryPath := "\x07"
  binaries := [{ name := "", path := "''" }, { name := "b", path := "c" }]
  dependencies :=
    [("", .featured "1" []), ("a.b", .version "2"), ("tokio", .featured "3" ["m", "\""]),
      ("z", .version "")]

theorem oddManifest_render_denotes :
    ByName oddManifest.dependencies ∧
      (∃ document, oddManifest.render = header ++ "\n\n" ++ document ∧
        ofText? document = some oddManifest) ∧
      '\n' ∉ header.toList ∧ ofText? oddManifest.render = some oddManifest :=
  ⟨by decide, oddManifest.render_denotes (by decide)⟩

theorem byName_withDependency {m : Manifest} (h : ByName m.dependencies) (name : String)
    (d : Dependency) : ByName (m.withDependency name d).dependencies :=
  byName_insertDependency h name d

end Manifest

theorem Descriptor.byName_manifest (d : Descriptor) : Manifest.ByName d.manifest.dependencies :=
  show Manifest.ByName (PinnedDependency.all.map fun p => (p.name, p.dependency)) by decide

end Scaffold
