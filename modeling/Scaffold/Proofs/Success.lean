import Scaffold.Proofs.Generation

/-!
When a generation succeeds. Where there is room for a project and nothing hinders, its directories
can be made one in the other, and its files can be written into them, whatever their texts.
-/

namespace Scaffold.Project

open Disk (Grows)

variable {d : Descriptor} {p : Placement} {disk : Disk} {parent name : String}

theorem folder_isOk (hparent : disk.isDirectoryAt parent = true) (hname : Disk.Legal name)
    (hlong : (Path.join parent name).utf8ByteSize < Disk.pathLimit)
    (hfree : ∀ mode text, disk.node? (Path.location disk.home (Path.join parent name)) ≠
      some (.file mode text)) :
    ∃ disk', ((Entry.folder (Path.join parent name)).make p).runOn disk = (.ok (), disk') ∧
      Grows (fun _ => False) [Path.location disk.home (Path.join parent name)] disk disk' ∧
      disk'.isDirectoryAt (Path.join parent name) = true := by
  obtain ⟨disk₁, hrun, hgrows, hthere⟩ :=
    Disk.makeDirectories_join_isOk hparent hname hlong hfree
  rcases makeDirectory_of_made p (fun _ => False) hrun hthere with
    ⟨disk₂, hmade, hgrows', -⟩ | ⟨e, hindered, -⟩
  · rw [hgrows.home_eq] at hgrows'
    exact ⟨disk₂, hmade, hgrows.trans hgrows', hgrows'.isDirectoryAt hthere⟩
  · cases hindered

/-- Each path leads by one name into a directory that is there or comes before it. -/
def Nested (there : List String) : List String → Prop
  | [] => True
  | path :: paths =>
    (∃ parent ∈ there, ∃ name, Disk.Legal name ∧ path = Path.join parent name) ∧
      Nested (path :: there) paths

/-- By induction along the list: what is made stays, so it is there for those that come behind. -/
theorem nested_isOk {there paths : List String} (hnested : Nested there paths)
    (hthere : ∀ path ∈ there, disk.isDirectoryAt path = true)
    (hlong : ∀ path ∈ paths, path.utf8ByteSize < Disk.pathLimit)
    (hplaces : (paths.map (Path.location disk.home)).Nodup)
    (hfree : ∀ path ∈ paths, ∀ mode text,
      disk.node? (Path.location disk.home path) ≠ some (.file mode text)) :
    ∃ disk', ((paths.map Entry.folder).forM (Entry.make p)).runOn disk = (.ok (), disk') ∧
      Grows (fun _ => False) (paths.map (Path.location disk.home)) disk disk' ∧
      ∀ path ∈ paths ++ there, disk'.isDirectoryAt path = true := by
  induction paths generalizing there disk with
  | nil => exact ⟨disk, rfl, .refl disk, hthere⟩
  | cons path paths ih =>
    obtain ⟨⟨parent, hparent, name, hname, rfl⟩, hnested⟩ := hnested
    obtain ⟨hlongx, hlong⟩ := List.forall_mem_cons.mp hlong
    obtain ⟨hfreex, hfree⟩ := List.forall_mem_cons.mp hfree
    obtain ⟨hplace, hplaces⟩ := List.nodup_cons.mp hplaces
    obtain ⟨disk₁, hrun₁, hgrows₁, hthere₁⟩ :=
      folder_isOk (p := p) (hthere parent hparent) hname hlongx hfreex
    have hhome := hgrows₁.home_eq
    have hstill : ∀ path ∈ there, disk₁.isDirectoryAt path = true :=
      fun path hpath => hgrows₁.isDirectoryAt (hthere path hpath)
    have hfree₁ : ∀ path ∈ paths, ∀ mode text,
        disk₁.node? (Path.location disk₁.home path) ≠ some (.file mode text) := by
      intro path hpath
      have hout : Path.location disk.home path ∉
          [Path.location disk.home (Path.join parent name)] := fun hmem =>
        hplace (List.mem_singleton.mp hmem ▸ List.mem_map_of_mem hpath)
      rw [hhome, (hgrows₁.untouched _ hout).resolve_right And.left]
      exact hfree path hpath
    obtain ⟨disk₂, hrun₂, hgrows₂, hthere₂⟩ :=
      ih hnested (List.forall_mem_cons.mpr ⟨hthere₁, hstill⟩) hlong (by rwa [hhome]) hfree₁
    rw [hhome] at hgrows₂
    refine ⟨disk₂, ?_, ?_, ?_⟩
    · change Action.runOn ((Entry.folder _).make p >>= fun _ =>
        (paths.map Entry.folder).forM (Entry.make p)) disk = _
      rw [Action.runOn_bind, hrun₁]
      exact hrun₂
    · exact (hgrows₁.mono (fun _ h _ => h) (by simp)).trans
        (hgrows₂.mono (fun _ h _ => h) (by simp))
    · exact fun path hpath => hthere₂ path (List.perm_middle.mem_iff.mpr hpath)

/-- Files in different places are all written if an empty text could be written in each place. -/
theorem files_isOk {xs : List Entry} (hplaces : (xs.map (Entry.place disk.home)).Nodup)
    (htexts : ∀ x ∈ xs, ∃ text, x = .file x.path (.ok text))
    (hwrite : ∀ x ∈ xs, (disk.write x.path "").isOk = true) :
    ((xs.forM (Entry.make p)).runOn disk).1 = .ok () := by
  induction xs generalizing disk with
  | nil => rfl
  | cons x xs ih =>
    obtain ⟨⟨text, hfile⟩, htexts⟩ := List.forall_mem_cons.mp htexts
    obtain ⟨hwritex, hwrite⟩ := List.forall_mem_cons.mp hwrite
    obtain ⟨hplace, hplaces⟩ := List.nodup_cons.mp hplaces
    rw [hfile]
    change (Action.runOn (writeFile p x.path text >>= fun _ => xs.forM (Entry.make p))
      disk).1 = _
    rw [Action.runOn_bind]
    rcases writeFile_cases .fair p (fun _ => False) disk x.path text with
      ⟨disk', hrun, hgrows, -⟩ | ⟨disk', e, hindered, -⟩ | ⟨e, hfails, -⟩
    · rw [hrun]
      -- what was written is in no place of the others, so they can be written as before
      refine ih (by rwa [hgrows.home_eq]) htexts fun y hy => ?_
      refine hgrows.write_isOk (hwrite y hy) (fun hmem => ?_) ""
      have hsame : y.place disk.home = x.place disk.home := List.mem_singleton.mp hmem
      exact hplace (hsame ▸ List.mem_map_of_mem hy)
    · cases hindered
    · have hok := Grows.write_isOk (.refl disk) hwritex List.not_mem_nil text
      change disk.write x.path text = .error e at hfails
      rw [hfails] at hok
      cases hok

/-- There is room for a project: its parent is there, its names and paths are not too long, and what
is in the places of its directories and files is of the same kind. -/
structure Room (d : Descriptor) (p : Placement) (disk : Disk) : Prop where
  root : disk.isDirectoryAt p.root = true
  short : d.info.name.utf8ByteSize + 4 ≤ Disk.nameLimit
  paths : ∀ x ∈ entries d p, x.path.utf8ByteSize < Disk.pathLimit
  no_file : ∀ x ∈ folders d p, ∀ mode text,
    disk.node? (x.place disk.home) ≠ some (.file mode text)
  no_directory : ∀ x ∈ files d p, ∀ mode,
    disk.node? (x.place disk.home) ≠ some (.directory mode)

theorem legal_append (h : Naming.IsProjectName d.info.name)
    (hshort : d.info.name.utf8ByteSize + 4 ≤ Disk.nameLimit) {ending : String}
    (hslash : '/' ∉ ending.toList) (hnul : '\x00' ∉ ending.toList)
    (hsize : ending.utf8ByteSize ≤ 4) :
    Disk.Legal (d.info.name ++ ending) where
  isName := h.isName_append hslash
  no_nul := by
    rw [String.toList_append]
    intro hmem
    rcases List.mem_append.mp hmem with hmem | hmem
    · rcases h.chars _ hmem with hchar | hchar | hchar <;> exact absurd hchar (by decide)
    · exact hnul hmem
  short := by
    rw [String.utf8ByteSize_append]
    omega

theorem legal_generatedFolder : Disk.Legal Artifact.generatedFolder := by decide +kernel

theorem legal_commandFolder : Disk.Legal Artifact.commandFolder := by decide +kernel

/-- Each artifact leads by one name into one of the directories. -/
theorem artifact_below (h : Naming.IsProjectName d.info.name)
    (hshort : d.info.name.utf8ByteSize + 4 ≤ Disk.nameLimit) (a : Artifact) :
    ∃ parent name, .folder parent ∈ folders d p ∧ Disk.Legal name ∧
      Path.join (directory d p) (a.path d.info.name) = Path.join parent name := by
  have hgenerated (below : String) :
      Path.join (directory d p) (Path.join Artifact.generatedFolder below) =
        Path.join (Path.join (directory d p) Artifact.generatedFolder) below :=
    isName_generatedFolder.join_join _ _
  have hcommand (below : String) :
      Path.join (directory d p) (Path.join Artifact.commandFolder below) =
        Path.join (Path.join (directory d p) Artifact.commandFolder) below :=
    isName_commandFolder.join_join _ _
  cases a with
  | stub =>
    exact ⟨directory d p, stubPath d.info.name, by simp [folders],
      legal_append h hshort (by decide) (by decide) (by decide), rfl⟩
  | contract => exact ⟨_, _, by simp [folders], by decide +kernel, hgenerated _⟩
  | bootstrap => exact ⟨_, _, by simp [folders], by decide +kernel, hgenerated _⟩
  | entrypoint => exact ⟨_, _, by simp [folders], by decide +kernel, hcommand _⟩
  | manifest => exact ⟨directory d p, "Cargo.toml", by simp [folders], by decide +kernel, rfl⟩

theorem file_below (h : Naming.IsProjectName d.info.name)
    (hshort : d.info.name.utf8ByteSize + 4 ≤ Disk.nameLimit) {x : Entry} (hx : x ∈ files d p) :
    ∃ parent name, .folder parent ∈ folders d p ∧ Disk.Legal name ∧
      x.path = Path.join parent name := by
  rcases List.mem_append.mp hx with hx | hx
  · obtain ⟨a, -, rfl⟩ := List.mem_map.mp hx
    exact artifact_below h hshort a
  · rw [List.mem_singleton.mp hx]
    exact ⟨directory d p, descriptorFile d.info.name, by simp [folders],
      legal_append h hshort (by decide) (by decide) (by decide), rfl⟩

def folderPaths (d : Descriptor) (p : Placement) : List String :=
  [directory d p, Path.join (directory d p) Artifact.generatedFolder,
   Path.join (directory d p) Artifact.commandFolder]

theorem map_folderPaths (d : Descriptor) (p : Placement) :
    (folderPaths d p).map Entry.folder = folders d p := rfl

theorem map_location_folderPaths (d : Descriptor) (p : Placement) (home : Location) :
    (folderPaths d p).map (Path.location home) = (folders d p).map (Entry.place home) := by
  rw [← map_folderPaths, List.map_map]
  exact List.map_congr_left fun _ _ => rfl

theorem folder_mem_folders_iff {path : String} :
    .folder path ∈ folders d p ↔ path ∈ folderPaths d p := by
  rw [← map_folderPaths, List.mem_map_of_injective fun _ _ h => Entry.folder.inj h]

theorem nested_folderPaths (h : Naming.IsProjectName d.info.name)
    (hshort : d.info.name.utf8ByteSize + 4 ≤ Disk.nameLimit) :
    Nested [p.root] (folderPaths d p) := by
  have hname : Disk.Legal (d.info.name ++ "") := legal_append h hshort (by simp) (by simp) (by simp)
  rw [String.append_empty] at hname
  exact ⟨⟨p.root, by simp, _, hname, rfl⟩, ⟨directory d p, by simp, _, legal_generatedFolder, rfl⟩,
    ⟨directory d p, by simp, _, legal_commandFolder, rfl⟩, trivial⟩

/-- Where there is room for a project, its directories can be made. -/
theorem Room.folders_isOk (room : Room d p disk) (h : Naming.IsProjectName d.info.name) :
    ∃ disk', ((folders d p).forM (Entry.make p)).runOn disk = (.ok (), disk') ∧
      Grows (fun _ => False) ((folders d p).map (Entry.place disk.home)) disk disk' ∧
      ∀ path, .folder path ∈ folders d p → disk'.isDirectoryAt path = true := by
  have hnodup := nodup_places h (p := p) disk.home
  rw [entries, List.map_append, List.nodup_append, ← map_location_folderPaths] at hnodup
  have hmem : ∀ path ∈ folderPaths d p, .folder path ∈ folders d p :=
    fun path hpath => folder_mem_folders_iff.mpr hpath
  have hlong : ∀ path ∈ folderPaths d p, path.utf8ByteSize < Disk.pathLimit :=
    fun path hpath => room.paths (.folder path) (List.mem_append_left _ (hmem path hpath))
  have hfree : ∀ path ∈ folderPaths d p, ∀ mode text,
      disk.node? (Path.location disk.home path) ≠ some (.file mode text) :=
    fun path hpath => room.no_file (.folder path) (hmem path hpath)
  obtain ⟨disk', hrun, hgrows, hthere⟩ := nested_isOk (p := p)
    (nested_folderPaths h room.short) (List.forall_mem_singleton.mpr room.root) hlong hnodup.1 hfree
  rw [map_folderPaths] at hrun
  rw [map_location_folderPaths] at hgrows
  exact ⟨disk', hrun, hgrows, fun path hpath =>
    hthere path (List.mem_append_left _ (folder_mem_folders_iff.mp hpath))⟩

theorem files_have_texts (hrender : ∀ a : Artifact, ∃ text, a.render d = .ok text) :
    ∀ x ∈ files d p, ∃ text, x = .file x.path (.ok text) := by
  intro x hx
  rcases List.mem_append.mp hx with hx | hx
  · obtain ⟨a, -, rfl⟩ := List.mem_map.mp hx
    obtain ⟨text, htext⟩ := hrender a
    refine ⟨text, ?_⟩
    rw [artifactFile, htext]
    rfl
  · rw [List.mem_singleton.mp hx]
    exact ⟨d.toYaml, rfl⟩

/-- Where there is room for a project, a valid name and texts are all that it takes. -/
theorem Room.entries_isOk (room : Room d p disk) (h : Naming.IsProjectName d.info.name)
    (hrender : ∀ a : Artifact, ∃ text, a.render d = .ok text) :
    (((entries d p).forM (Entry.make p)).runOn disk).1 = .ok () := by
  obtain ⟨disk', hrun, hgrows, hthere⟩ := room.folders_isOk h
  have happend : (entries d p).forM (Entry.make p) =
      ((folders d p).forM (Entry.make p) >>= fun _ => (files d p).forM (Entry.make p)) :=
    List.forM_append
  rw [happend, Action.runOn_bind, hrun]
  have hnodup := nodup_places h (p := p) disk.home
  rw [entries, List.map_append, List.nodup_append] at hnodup
  refine files_isOk (hgrows.home_eq ▸ hnodup.2.1) (files_have_texts hrender) fun x hx => ?_
  -- the file leads into a directory that was made, and what is in its place is as it was
  obtain ⟨parent, name, hparent, hname, hpath⟩ := file_below h room.short hx
  have hout : x.place disk.home ∉ (folders d p).map (Entry.place disk.home) := fun hmem =>
    hnodup.2.2 _ hmem _ (List.mem_map_of_mem hx) rfl
  have hfree : ∀ mode, disk'.node? (x.place disk'.home) ≠ some (.directory mode) := by
    intro mode
    rw [hgrows.home_eq, (hgrows.untouched _ hout).resolve_right And.left]
    exact room.no_directory x hx mode
  have hlong := room.paths x (List.mem_append_right _ hx)
  rw [Entry.place, hpath] at hfree
  rw [hpath] at hlong ⊢
  exact Disk.write_join_isOk (hthere parent hparent) hname hlong hfree ""

theorem Room.generate_isOk (room : Room d p disk) (programs : Programs)
    (hname : Naming.isProjectName d.info.name = true)
    (hfree : p.existing = .refuse → disk.isThere (directory d p) = false)
    (hrender : ∀ a : Artifact, ∃ text, a.render d = .ok text) (hformat : p.format = false) :
    ((generate programs d p).runOn disk).1 = .ok (directory d p) := by
  have hmade := room.entries_isOk ((Naming.isProjectName_iff _).mp hname) hrender
  rw [runOn_generate_of_made programs hname hfree hmade, finish, hformat]
  rfl

end Scaffold.Project
