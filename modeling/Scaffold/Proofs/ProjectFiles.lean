import Mathlib.Data.List.Nodup
import Scaffold.Project.Generate
import Scaffold.Proofs.Identifiers
import Scaffold.Proofs.Paths

/-!
What a generation makes: three directories and six files, in this order. A valid name is a single
name downwards, so all nine are in the directory of the project, and no two are in one place.
-/

namespace Scaffold

theorem Naming.IsProjectName.isName_append {name ending : String} (h : IsProjectName name)
    (hslash : '/' ∉ ending.toList) : Path.IsName (name ++ ending) := by
  obtain ⟨c, rest, hname, halpha⟩ := h.opens
  have hlist : (name ++ ending).toList = c :: (rest ++ ending.toList) := by
    rw [String.toList_append, hname, List.cons_append]
  have hdot : c ≠ '.' := by
    rintro rfl
    exact absurd halpha (by decide)
  refine ⟨⟨fun heq => ?_, fun hmem => ?_⟩, fun heq => ?_, fun heq => ?_⟩
  · rw [heq] at hlist
    cases hlist
  · rw [String.toList_append] at hmem
    rcases List.mem_append.mp hmem with hmem | hmem
    · rcases h.chars _ hmem with hchar | hchar | hchar <;> exact absurd hchar (by decide)
    · exact hslash hmem
  · rw [heq] at hlist
    exact hdot (List.cons.inj hlist).1.symm
  · rw [heq] at hlist
    exact hdot (List.cons.inj hlist).1.symm

theorem Naming.IsProjectName.isName {name : String} (h : IsProjectName name) :
    Path.IsName name := by
  have happend : Path.IsName (name ++ "") := h.isName_append (by simp)
  rwa [String.append_empty] at happend

/-- Texts differ if their endings of one length do. -/
theorem append_ne_append {s t : String} (a b : String) (hlength : s.length = t.length)
    (h : s ≠ t) : a ++ s ≠ b ++ t := by
  intro heq
  rw [← String.toList_inj, String.toList_append, String.toList_append] at heq
  exact h (String.toList_inj.mp (List.append_inj_right' heq hlength))

namespace Project

/-- A step of a generation: a directory, or a file with its text or the error why it has none. -/
inductive Entry where
  | folder (path : String)
  | file (path : String) (text : Except ProjectError String)

namespace Entry

def path : Entry → String
  | folder path => path
  | file path _ => path

def place (home : Location) (x : Entry) : Location := Path.location home x.path

def make (p : Placement) : Entry → Action ProjectError Unit
  | folder path => makeDirectory p path
  | file path (.ok text) => writeFile p path text
  | file _ (.error e) => throw e

/-- The entry is found by its path, a file with all of its text. -/
def Holds (disk : Disk) : Entry → Prop
  | folder path => disk.isDirectoryAt path = true
  | file path text => ∃ t mode, text = .ok t ∧
    disk.find path = .ok (Path.location disk.home path, .file mode t)

/-- The entry is found by its path, a file with all of its text, and both with the mode that is
asked for. -/
def Stands (p : Placement) (disk : Disk) : Entry → Prop
  | folder path =>
    disk.find path =
      .ok (Path.location disk.home path, .directory (p.directoryMode % Node.modeLimit))
  | file path text => ∃ t, text = .ok t ∧
    disk.find path = .ok (Path.location disk.home path, .file (p.fileMode % Node.modeLimit) t)

theorem Stands.holds {p : Placement} {disk : Disk} {x : Entry} (h : x.Stands p disk) :
    x.Holds disk := by
  cases x with
  | folder path =>
    change disk.isDirectoryAt path = true
    rw [Disk.isDirectoryAt, h]
    rfl
  | file path text =>
    obtain ⟨t, ht, hfind⟩ := h
    exact ⟨t, _, ht, hfind⟩

end Entry

/-- Where the project of a descriptor is put. -/
def directory (d : Descriptor) (p : Placement) : String := Path.join p.root d.info.name

def folders (d : Descriptor) (p : Placement) : List Entry :=
  [.folder (directory d p),
   .folder (Path.join (directory d p) Artifact.generatedFolder),
   .folder (Path.join (directory d p) Artifact.commandFolder)]

def artifactFile (d : Descriptor) (p : Placement) (a : Artifact) : Entry :=
  .file (Path.join (directory d p) (a.path d.info.name)) ((a.render d).mapError (.render a))

def storedDescriptor (d : Descriptor) (p : Placement) : Entry :=
  .file (Path.join (directory d p) (descriptorFile d.info.name)) (.ok d.toYaml)

/-- The six files, in the order in which they are written. -/
def files (d : Descriptor) (p : Placement) : List Entry :=
  Artifact.all.map (artifactFile d p) ++ [storedDescriptor d p]

def entries (d : Descriptor) (p : Placement) : List Entry := folders d p ++ files d p

variable {d : Descriptor} {p : Placement} {x : Entry}

theorem mem_folders (hx : x ∈ folders d p) : ∃ path, x = .folder path := by
  simp only [folders, List.mem_cons, List.not_mem_nil, or_false] at hx
  rcases hx with rfl | rfl | rfl <;> exact ⟨_, rfl⟩

/-- Where an artifact is, seen from the directory of the project. -/
def artifactTail (name : String) : Artifact → Location
  | .stub => [stubPath name]
  | .contract => [Artifact.generatedFolder, "interface.rs"]
  | .bootstrap => [Artifact.generatedFolder, "bootstrap.rs"]
  | .entrypoint => [Artifact.commandFolder, "main.rs"]
  | .manifest => ["Cargo.toml"]

/-- Where the entries are, seen from the directory of the project. -/
def tails (name : String) : List Location :=
  [[], [Artifact.generatedFolder], [Artifact.commandFolder]] ++
    (Artifact.all.map (artifactTail name) ++ [[descriptorFile name]])

theorem nodup_tails (name : String) : (tails name).Nodup := by
  -- the names right below the directory differ in their last three characters
  have hstub (s t : String) (hlength : t.length = 3) (h : t ≠ ".rs") : s ++ t ≠ stubPath name :=
    append_ne_append s name hlength h
  have hyml (s t : String) (hlength : t.length = 3) (h : t ≠ "yml") :
      s ++ t ≠ descriptorFile name := by
    have hsplit : descriptorFile name = name ++ "." ++ "yml" := by
      rw [String.append_assoc]
      rfl
    rw [hsplit]
    exact append_ne_append s _ hlength h
  have hgen : "gen" ≠ stubPath name ∧ "gen" ≠ descriptorFile name :=
    ⟨hstub "" "gen" rfl (by decide), hyml "" "gen" rfl (by decide)⟩
  have hcmd : "cmd" ≠ stubPath name ∧ "cmd" ≠ descriptorFile name :=
    ⟨hstub "" "cmd" rfl (by decide), hyml "" "cmd" rfl (by decide)⟩
  have hcargo : "Cargo.toml" ≠ stubPath name ∧ "Cargo.toml" ≠ descriptorFile name :=
    ⟨hstub "Cargo.t" "oml" rfl (by decide), hyml "Cargo.t" "oml" rfl (by decide)⟩
  have hfiles : stubPath name ≠ descriptorFile name := hyml name ".rs" rfl (by decide)
  simp [tails, artifactTail, Artifact.all, Artifact.generatedFolder, Artifact.commandFolder, hgen,
    hcmd, hcargo, hcargo.1.symm, hfiles]

theorem isName_generatedFolder : Path.IsName Artifact.generatedFolder := by decide +kernel

theorem isName_commandFolder : Path.IsName Artifact.commandFolder := by decide +kernel

theorem place_artifactFile (h : Naming.IsProjectName d.info.name) (home : Location)
    (a : Artifact) :
    (artifactFile d p a).place home =
      Path.location home (directory d p) ++ artifactTail d.info.name a := by
  change Path.location home (Path.join (directory d p) (a.path d.info.name)) = _
  cases a with
  | stub =>
    have hstub : Path.IsName (stubPath d.info.name) := h.isName_append (by decide +kernel)
    exact hstub.location_join home _
  | contract => exact isName_generatedFolder.location_join_join home _ (by decide +kernel)
  | bootstrap => exact isName_generatedFolder.location_join_join home _ (by decide +kernel)
  | entrypoint => exact isName_commandFolder.location_join_join home _ (by decide +kernel)
  | manifest =>
    have hmanifest : Path.IsName "Cargo.toml" := by decide +kernel
    exact hmanifest.location_join home _

theorem map_place_entries (h : Naming.IsProjectName d.info.name) (home : Location) :
    (entries d p).map (Entry.place home) =
      (tails d.info.name).map (Path.location home (directory d p) ++ ·) := by
  have hfolders : (folders d p).map (Entry.place home) =
      [[], [Artifact.generatedFolder], [Artifact.commandFolder]].map
        (Path.location home (directory d p) ++ ·) := by
    simp [folders, Entry.place, Entry.path, isName_generatedFolder.location_join,
      isName_commandFolder.location_join]
  have hartifacts : (Artifact.all.map (artifactFile d p)).map (Entry.place home) =
      (Artifact.all.map (artifactTail d.info.name)).map
        (Path.location home (directory d p) ++ ·) := by
    simp only [List.map_map, Function.comp_def, place_artifactFile h home]
  have hname : Path.IsName (descriptorFile d.info.name) := h.isName_append (by decide +kernel)
  have hdescriptor : (storedDescriptor d p).place home =
      Path.location home (directory d p) ++ [descriptorFile d.info.name] :=
    hname.location_join home _
  rw [entries, files, List.map_append, List.map_append, hfolders, hartifacts, tails,
    List.map_append, List.map_append]
  simp only [List.map_cons, List.map_nil, hdescriptor]

/-- No two of the nine entries are in one place. -/
theorem nodup_places (h : Naming.IsProjectName d.info.name) (home : Location) :
    ((entries d p).map (Entry.place home)).Nodup := by
  rw [map_place_entries h home]
  exact List.Nodup.map (fun _ _ heq => List.append_cancel_left heq) (nodup_tails d.info.name)

/-- Outside of the three directories, the paths to them pass where the path to the first does. -/
theorem passes_directory {path : String} (hpath : .folder path ∈ folders d p) {home l : Location}
    (hl : Path.Passes home path l) :
    l ∈ (folders d p).map (Entry.place home) ∨ Path.Passes home (directory d p) l := by
  have hself := List.mem_map_of_mem (f := Entry.place home) hpath
  simp only [folders, List.mem_cons, List.not_mem_nil, or_false, Entry.folder.injEq] at hpath
  have hbelow {name : String} (hname : Path.IsName name)
      (hpath : path = Path.join (directory d p) name) :
      l ∈ (folders d p).map (Entry.place home) ∨ Path.Passes home (directory d p) l := by
    subst hpath
    refine (hname.passes_join home _ hl).imp_left fun heq => ?_
    rw [heq]
    exact hself
  rcases hpath with rfl | hpath | hpath
  · exact .inr hl
  · exact hbelow isName_generatedFolder hpath
  · exact hbelow isName_commandFolder hpath

theorem path_ne_empty (h : Naming.IsProjectName d.info.name) {path : String}
    (hpath : .folder path ∈ folders d p) : path ≠ "" := by
  have hdirectory : directory d p ≠ "" := h.isName.join_ne_empty p.root
  simp only [folders, List.mem_cons, List.not_mem_nil, or_false, Entry.folder.injEq] at hpath
  rcases hpath with rfl | rfl | rfl
  · exact hdirectory
  · exact isName_generatedFolder.join_ne_empty _
  · exact isName_commandFolder.join_ne_empty _

end Project

end Scaffold
