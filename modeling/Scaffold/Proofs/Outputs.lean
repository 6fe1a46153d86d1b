import Scaffold.Proofs.Declarations
import Scaffold.Proofs.ProjectFrame

/-!
What a valid project name is good for. The generated names are identifiers, the name itself is one
step downwards, and the paths of the six files keep out of each other's way. So a generation keeps
to its own directory, and makes nothing twice.
-/

namespace Scaffold

namespace Path

/-- The path is relative and goes through these names alone, each of which leads downwards. -/
structure LeadsDown (path : String) (names : List String) : Prop where
  relative : isAbsolute path = false
  parts_eq : parts path = names
  ne_nil : names ≠ []
  downwards : ∀ s ∈ names, IsName s

theorem LeadsDown.parts {path : String} {names : List String} (h : LeadsDown path names) :
    LeadsDown path (parts path) := by
  rwa [h.parts_eq]

namespace IsName

variable {name below : String}

theorem leadsDown (h : IsName name) : LeadsDown name [name] where
  relative := h.isAbsolute_eq
  parts_eq := parts_of_isPart h.1
  ne_nil := by simp
  downwards := by simpa using h

theorem leadsDown_join (h : IsName name) (hbelow : IsName below) :
    LeadsDown (join name below) [name, below] where
  relative := by rw [isAbsolute_join name hbelow.isAbsolute_eq, h.isAbsolute_eq]
  parts_eq := by
    rw [parts_join, parts_of_isPart h.1, parts_of_isPart hbelow.1]
    rfl
  ne_nil := by simp
  downwards := by simp [h, hbelow]

end IsName

/-- Neither path leads to where the other one leads or passes. -/
def Apart (a b : String) : Prop := ¬ parts a <+: parts b ∧ ¬ parts b <+: parts a

theorem Apart.ne {a b : String} (h : Apart a b) : a ≠ b := by
  rintro rfl
  exact h.1 (List.prefix_refl _)

end Path

namespace Project

open Disk (Grows)

variable {name : String} {d : Descriptor} {p : Placement} {disk : Disk}

/-- Where the six files are kept, from the directory of the project. -/
def outputs (name : String) : List String :=
  Artifact.all.map (Artifact.path name) ++ [descriptorFile name]

/-- The two directories below that of the project. -/
def subfolders : List String := [Artifact.generatedFolder, Artifact.commandFolder]

theorem leadsDown_path (h : Naming.IsProjectName name) (a : Artifact) :
    Path.LeadsDown (a.path name) (artifactTail name a) := by
  cases a with
  | stub =>
    have hstub : Path.IsName (stubPath name) := h.isName_append (by decide)
    exact hstub.leadsDown
  | contract => exact isName_generatedFolder.leadsDown_join (by decide)
  | bootstrap => exact isName_generatedFolder.leadsDown_join (by decide)
  | entrypoint => exact isName_commandFolder.leadsDown_join (by decide)
  | manifest =>
    have hmanifest : Path.IsName "Cargo.toml" := by decide
    exact hmanifest.leadsDown

theorem leadsDown_descriptorFile (h : Naming.IsProjectName name) :
    Path.LeadsDown (descriptorFile name) [descriptorFile name] := by
  have hname : Path.IsName (descriptorFile name) := h.isName_append (by decide)
  exact hname.leadsDown

theorem leadsDown_of_mem_outputs (h : Naming.IsProjectName name) {path : String}
    (hpath : path ∈ outputs name) : Path.LeadsDown path (Path.parts path) := by
  rcases List.mem_append.mp hpath with hpath | hpath
  · obtain ⟨a, -, rfl⟩ := List.mem_map.mp hpath
    exact (leadsDown_path h a).parts
  · rw [List.mem_singleton.mp hpath]
    exact (leadsDown_descriptorFile h).parts

/-- The directories of a project, seen from its own. -/
def folderTails : List Location := [[], [Artifact.generatedFolder], [Artifact.commandFolder]]

/-- The files of a project, seen from its directory. -/
def fileTails (name : String) : List Location :=
  Artifact.all.map (artifactTail name) ++ [[descriptorFile name]]

theorem map_parts_outputs (h : Naming.IsProjectName name) :
    (outputs name).map Path.parts = fileTails name := by
  have hparts : Path.parts ∘ Artifact.path name = artifactTail name :=
    funext fun a => (leadsDown_path h a).parts_eq
  rw [outputs, List.map_append, List.map_map, hparts, List.map_singleton,
    (leadsDown_descriptorFile h).parts_eq, fileTails]

theorem nodup_fileTails (name : String) :
    (fileTails name).Nodup ∧ ∀ folder ∈ folderTails, folder ∉ fileTails name := by
  have htails : (folderTails ++ fileTails name).Nodup := nodup_tails name
  obtain ⟨-, hfiles, hdisjoint⟩ := List.nodup_append.mp htails
  exact ⟨hfiles, fun folder hfolder hfile => hdisjoint folder hfolder folder hfile rfl⟩

theorem exists_eq_append_of_mem_fileTails {tail : Location} (h : tail ∈ fileTails name) :
    ∃ folder ∈ folderTails, ∃ last, tail = folder ++ [last] := by
  rcases List.mem_append.mp h with h | h
  · obtain ⟨a, -, rfl⟩ := List.mem_map.mp h
    cases a with
    | stub => exact ⟨[], by simp [folderTails], _, rfl⟩
    | contract => exact ⟨[Artifact.generatedFolder], by simp [folderTails], _, rfl⟩
    | bootstrap => exact ⟨[Artifact.generatedFolder], by simp [folderTails], _, rfl⟩
    | entrypoint => exact ⟨[Artifact.commandFolder], by simp [folderTails], _, rfl⟩
    | manifest => exact ⟨[], by simp [folderTails], _, rfl⟩
  · exact ⟨[], by simp [folderTails], _, List.mem_singleton.mp h⟩

theorem mem_folderTails_of_le {front folder : Location} (hfolder : folder ∈ folderTails)
    (h : front <+: folder) : front ∈ folderTails := by
  simp only [folderTails, List.mem_cons, List.not_mem_nil, or_false] at hfolder ⊢
  rcases hfolder with rfl | rfl | rfl
  · exact .inl (List.prefix_nil.mp h)
  · exact (List.prefix_concat_iff.mp h).elim (fun heq => .inr (.inl heq))
      fun hnil => .inl (List.prefix_nil.mp hnil)
  · exact (List.prefix_concat_iff.mp h).elim (fun heq => .inr (.inr heq))
      fun hnil => .inl (List.prefix_nil.mp hnil)

/-- On the way to a file there are only directories, so there is no other file. -/
theorem not_prefix_of_mem_fileTails {front tail : Location} (hfront : front ∈ fileTails name)
    (htail : tail ∈ fileTails name) (hne : front ≠ tail) : ¬ front <+: tail := by
  obtain ⟨folder, hfolder, last, rfl⟩ := exists_eq_append_of_mem_fileTails htail
  intro hprefix
  have hbelow : front <+: folder := (List.prefix_concat_iff.mp hprefix).resolve_left hne
  exact (nodup_fileTails name).2 front (mem_folderTails_of_le hfolder hbelow) hfront

theorem pairwise_apart_outputs (h : Naming.IsProjectName name) :
    (outputs name).Pairwise Path.Apart := by
  have hapart : (fileTails name).Pairwise fun a b => ¬ a <+: b ∧ ¬ b <+: a :=
    (nodup_fileTails name).1.imp_of_mem fun ha hb hne =>
      ⟨not_prefix_of_mem_fileTails ha hb hne, not_prefix_of_mem_fileTails hb ha hne.symm⟩
  rwa [← map_parts_outputs h, List.pairwise_map] at hapart

theorem parts_ne_of_mem_outputs (h : Naming.IsProjectName name) {path : String}
    (hpath : path ∈ outputs name) {folder : String} (hfolder : folder ∈ subfolders) :
    Path.parts path ≠ Path.parts folder := by
  have htail : Path.parts folder ∈ folderTails := by
    rcases List.mem_pair.mp hfolder with rfl | rfl
    · rw [isName_generatedFolder.leadsDown.parts_eq]
      simp [folderTails]
    · rw [isName_commandFolder.leadsDown.parts_eq]
      simp [folderTails]
  have hfile : Path.parts path ∈ fileTails name := by
    rw [← map_parts_outputs h]
    exact List.mem_map_of_mem hpath
  exact fun heq => (nodup_fileTails name).2 _ htail (heq ▸ hfile)

/-- A generation of the project, where the place is free for it, makes the directories and the files
one after the other, each once. All are in the directory of the project, right below the root, and
nothing changes elsewhere, but for directories that were missing on the way there. -/
structure Confined (programs : Programs) (o : Conditions) (d : Descriptor) (p : Placement)
    (disk : Disk) : Prop where
  files_eq : (files d p).map Entry.path = (outputs d.info.name).map (Path.join (directory d p))
  folders_eq : (folders d p).map Entry.path =
    directory d p :: subfolders.map (Path.join (directory d p))
  place_eq : Path.location disk.home (directory d p) =
    Path.location disk.home p.root ++ [d.info.name]
  below : ∀ x ∈ entries d p, Path.location disk.home (directory d p) <+: x.place disk.home
  once : ((entries d p).map (Entry.place disk.home)).Nodup
  run_eq : (generate programs d p).runOn disk o =
    if disk.isThere (directory d p) = true ∧ p.existing = .refuse then
      (.error (.alreadyExists (directory d p)), disk)
    else ((entries d p).forM (Entry.make p) >>= fun _ => finish programs d p).runOn disk o
  grows : Grows (Path.Passes disk.home (directory d p)) ((entries d p).map (Entry.place disk.home))
    disk ((generate programs d p).runOn disk o).2

theorem Outcome.grows {programs : Programs} {o : Conditions}
    {run : Except ProjectError String × Disk} (h : Outcome programs o d p disk run) :
    Grows (Path.Passes disk.home (directory d p)) ((entries d p).map (Entry.place disk.home))
      disk run.2 := by
  cases h with
  | invalid name => exact .refl disk
  | refused there kept => exact .refl disk
  | failed name free ends =>
    cases ends with
    | unfinished k grows stands next holds hindered =>
      refine grows_entries (grows.mono (fun l hl _ => hl) ?_)
      exact List.map_subset _ (List.take_subset (k + 1) _)
    | failed k grows stands next blames =>
      refine grows_entries (grows.mono (fun l hl _ => hl) ?_)
      exact List.map_subset _ (List.take_subset k _)
  | unformatted name free ends wanted fails =>
    cases ends with
    | made grows stands => exact grows_entries grows
  | done name free ends formatted =>
    cases ends with
    | made grows stands => exact grows_entries grows

theorem confined (programs : Programs) (o : Conditions) (p : Placement) (disk : Disk)
    (hname : Naming.isProjectName d.info.name = true) : Confined programs o d p disk where
  files_eq := by
    rw [files, outputs, List.map_append, List.map_append, List.map_map, List.map_map]
    rfl
  folders_eq := rfl
  place_eq := ((Naming.isProjectName_iff _).mp hname).isName.location_join disk.home p.root
  below := by
    have hplaces := map_place_entries ((Naming.isProjectName_iff _).mp hname) disk.home (p := p)
    intro x hx
    have hmem : x.place disk.home ∈ (entries d p).map (Entry.place disk.home) :=
      List.mem_map_of_mem hx
    rw [hplaces] at hmem
    obtain ⟨tail, -, heq⟩ := List.mem_map.mp hmem
    exact ⟨tail, heq⟩
  once := nodup_places ((Naming.isProjectName_iff _).mp hname) disk.home
  run_eq := by rw [runOn_generate, if_pos hname]
  grows := (generate_outcome programs o d p disk).grows

/-- With a valid project name, the crate and the traits of the service have names that are
identifiers, three different ones for the traits. The name is one step downwards, and so is each
part of the paths of the six files. These lead to six places, none on the way to another and none
that of a directory, and a generation is confined to them. -/
theorem valid_name_confines_project (name : String) (h : Naming.isProjectName name = true) :
    let n := Service.Names.ofProject name
    (∀ s ∈ [n.crate, n.service, n.handler, n.middleware], Naming.isIdentifier s = true) ∧
    [n.service, n.handler, n.middleware].Nodup ∧
    Path.LeadsDown name [name] ∧
    (∀ path ∈ outputs name, Path.LeadsDown path (Path.parts path)) ∧
    (outputs name).Nodup ∧
    (outputs name).Pairwise Path.Apart ∧
    (∀ path ∈ outputs name, ∀ folder ∈ subfolders, Path.parts path ≠ Path.parts folder) ∧
    ∀ programs o d p disk, d.info.name = name → Confined programs o d p disk := by
  intro n
  have hname := (Naming.isProjectName_iff name).mp h
  have hlegal := Service.Names.legal_ofProject h
  have hapart := pairwise_apart_outputs hname
  refine ⟨?_, Service.nodup_traitNames _, hname.isName.leadsDown,
    fun path hpath => leadsDown_of_mem_outputs hname hpath, hapart.imp Path.Apart.ne, hapart,
    fun path hpath folder hfolder => parts_ne_of_mem_outputs hname hpath hfolder, ?_⟩
  · simp only [List.forall_mem_cons]
    exact ⟨hlegal.crate, hlegal.service, hlegal.handler, hlegal.middleware, nofun⟩
  · rintro programs o d p disk rfl
    exact confined programs o p disk h

/-- A name with words that are empty, and with a digit and a keyword behind its dashes. -/
theorem dashed_name_confines_project :
    Naming.isProjectName "gen--2-match_" = true ∧
      Naming.isIdentifier "gen__2_match_" = true ∧
      Path.components "gen--2-match_" = ["gen--2-match_"] ∧
      outputs "gen--2-match_" =
        ["gen--2-match_.rs", "gen/interface.rs", "gen/bootstrap.rs", "cmd/main.rs", "Cargo.toml",
          "gen--2-match_.yml"] ∧
      (outputs "gen--2-match_").Nodup ∧
      Confined noPrograms .fair (Descriptor.base { name := "gen--2-match_" }) (here false)
        Disk.empty := by
  have hvalid : Naming.isProjectName "gen--2-match_" = true := by decide
  have hcrate : (Service.Names.ofProject "gen--2-match_").crate = "gen__2_match_" := by
    decide
  obtain ⟨hidentifiers, -, hdown, -, hnodup, -, -, hconfined⟩ :=
    valid_name_confines_project "gen--2-match_" hvalid
  refine ⟨hvalid, ?_, ?_, by decide, hnodup, hconfined _ _ _ _ _ rfl⟩
  · rw [← hcrate]
    exact hidentifiers _ List.mem_cons_self
  · rw [Path.components, hdown.parts_eq]
    decide

end Project

end Scaffold
