import Scaffold.Proofs.ProjectFrame
import Scaffold.Proofs.YamlRoundTrip

/-!
Generating a project once more. An entry that stands is made again without a change, so the disks
that a generation leaves as they are are just those on which the project stands. The stored
descriptor is one of its files, and is read as YAML because of its name.
-/

namespace Scaffold

namespace Disk

variable {d : Disk} {l : Location} {n : Node} {path : String}

/-- Putting what is there already changes nothing. -/
theorem put_eq_self (h : d.node? l = some n) : d.put l n = d := by
  have hnodes (nodes : List (Location × Node)) (h : nodes.lookup l = some n) :
      putAmong l n nodes = nodes := by
    induction nodes with
    | nil => cases h
    | cons m nodes ih =>
      obtain ⟨k, m⟩ := m
      by_cases hk : k = l
      · subst hk
        rw [List.lookup_cons_self] at h
        rw [putAmong, if_pos rfl, Option.some.inj h]
      · rw [List.lookup_cons, beq_false_of_ne (Ne.symm hk)] at h
        rw [putAmong, if_neg hk, ih h]
  rw [put, hnodes d.nodes h]

theorem setMode_eq_self {mode : Nat} (h : d.find path = .ok (l, n))
    (hmode : n.withMode (mode % Node.modeLimit) = n) : d.setMode path mode = .ok d := by
  simp only [setMode, h]
  rw [hmode, put_eq_self (find_eq_ok_iff.mp h).2.1]

theorem write_eq_self {mode : Nat} {text : String} (h : d.find path = .ok (l, .file mode text)) :
    d.write path text = .ok d := by
  obtain ⟨hlocate, hnode, hslash⟩ := find_eq_ok_iff.mp h
  have hends : ¬ Path.endsInSlash path = true := fun hends => nomatch hslash hends
  simp only [write, hlocate, hnode]
  rw [if_neg hends, put_eq_self hnode]

theorem makeDirectories_eq_self (h : d.isDirectoryAt path = true) :
    (makeDirectories path).runOn d = (.ok (), d) := by
  obtain ⟨mode, hfind⟩ := isDirectoryAt_iff.mp h
  obtain ⟨hlocate, hnode, -⟩ := find_eq_ok_iff.mp hfind
  have hmake : d.makeDirectory path = .error .alreadyExists := by
    simp only [makeDirectory, hlocate, hnode]
  unfold makeDirectories
  split
  · rfl
  · rw [runOn_makeBelow, runOn_makeOne, Conditions.attempt_fair, Change.apply, hmake,
      if_neg (by decide)]
    dsimp only
    rw [if_pos h]

end Disk

namespace Project

variable {d : Descriptor} {p : Placement} {x : Entry} {disk : Disk}

/-- What stands is made again without a change, if nothing hinders it. -/
theorem Entry.Stands.runOn_make (h : x.Stands p disk) : (x.make p).runOn disk = (.ok (), disk) := by
  cases x with
  | folder path =>
    have hmade := Disk.makeDirectories_eq_self (Disk.isDirectoryAt_iff.mpr ⟨_, h⟩)
    change (makeDirectory p path).runOn disk = _
    unfold makeDirectory
    rw [Action.runOn_adapt, Action.runOn_bind, hmade]
    simp only [Action.runOn_perform, Conditions.attempt_fair, Change.apply,
      Disk.setMode_eq_self h rfl]
    rfl
  | file path text =>
    obtain ⟨t, rfl, hfind⟩ := h
    change (writeFile p path t).runOn disk = _
    unfold writeFile
    rw [Action.runOn_adapt, Action.runOn_bind, Action.runOn_perform, Conditions.attempt_fair,
      Change.apply, Disk.write_eq_self hfind]
    simp only [Action.runOn_perform, Conditions.attempt_fair, Change.apply,
      Disk.setMode_eq_self hfind rfl]
    rfl

theorem runOn_forM_make {xs : List Entry} (h : ∀ x ∈ xs, x.Stands p disk) :
    (xs.forM (Entry.make p)).runOn disk = (.ok (), disk) := by
  induction xs with
  | nil => rfl
  | cons x xs ih =>
    obtain ⟨hx, hxs⟩ := List.forall_mem_cons.mp h
    change (x.make p >>= fun _ => xs.forM (Entry.make p)).runOn disk = _
    rw [Action.runOn_bind, hx.runOn_make]
    exact ih hxs

/-- The disks that a generation leaves as they are are those on which the project stands. -/
theorem runOn_generate_eq_self_iff (programs : Programs)
    (hname : Naming.isProjectName d.info.name = true) (hexisting : p.existing = .overwrite)
    (hformat : p.format = false) :
    (generate programs d p).runOn disk = (.ok (directory d p), disk) ↔
      ∀ x ∈ entries d p, x.Stands p disk := by
  constructor
  · intro hrun
    have houtcome := generate_outcome programs .fair d p disk
    rw [hrun] at houtcome
    exact (houtcome.complete_of_ok rfl).2.1
  · intro hstands
    have hmade := runOn_forM_make hstands
    have hkept : p.existing ≠ .refuse := by
      rw [hexisting]
      exact nofun
    rw [runOn_generate_of_made programs hname (fun h => absurd h hkept) (congrArg Prod.fst hmade),
      hmade]
    unfold finish
    rw [hformat]
    rfl

theorem Outcome.isProjectName_of_ok {programs : Programs} {o : Conditions}
    {run : Except ProjectError String × Disk} {path : String} (h : Outcome programs o d p disk run)
    (hpath : run.1 = .ok path) :
    Naming.isProjectName d.info.name = true := by
  cases h with
  | done name free ends formatted => exact (Naming.isProjectName_iff _).mpr name
  | _ => cases hpath

/-- A project name in front of an extension is the name of a file with that extension. -/
theorem format_storedDescriptor (h : Naming.IsProjectName d.info.name) :
    Format.ofPath (storedDescriptor d p).path = .yaml := by
  have hname : Path.IsName (descriptorFile d.info.name) := h.isName_append (by decide +kernel)
  have hfile : Path.fileName? (storedDescriptor d p).path = some (descriptorFile d.info.name) := by
    change Path.fileName? (Path.join (directory d p) (descriptorFile d.info.name)) = _
    rw [Path.fileName?, Path.components_join, hname.components_eq, List.getLast?_concat]
    split
    · next hup => exact absurd (Option.some.inj hup) hname.2.2
    · rfl
  obtain ⟨c, rest, hlist, -⟩ := h.opens
  have hreverse : (descriptorFile d.info.name).toList.reverse =
      ['l', 'm', 'y'] ++ '.' :: d.info.name.toList.reverse := by
    rw [descriptorFile, String.toList_append, List.reverse_append]
    rfl
  have hdot : (descriptorFile d.info.name).toList.contains '.' = true := by
    rw [List.contains_iff_mem, ← List.mem_reverse, hreverse]
    simp
  have hlength : (descriptorFile d.info.name).toList.length ≠ 4 := by
    rw [← List.length_reverse, hreverse, hlist]
    simp
  have hextension : Path.extension? (storedDescriptor d p).path = some "yml" := by
    rw [Path.extension?, hfile]
    change (if (descriptorFile d.info.name).toList.contains '.' = true then _ else _) = _
    rw [if_pos hdot, hreverse]
    simpa using hlength.symm
  rw [Format.ofPath, hextension]
  rfl

/-- The descriptor is loaded from its file as it is read from its YAML. -/
theorem load_storedDescriptor (h : Naming.IsProjectName d.info.name)
    (hstands : (storedDescriptor d p).Stands p disk) (hread : Descriptor.ofYaml d.toYaml = .ok d) :
    Descriptor.load (storedDescriptor d p).path disk = .ok d := by
  obtain ⟨text, htext, hfind⟩ := hstands
  obtain rfl := Except.ok.inj htext
  have hfound : disk.find (storedDescriptor d p).path = .ok
      (Path.location disk.home (storedDescriptor d p).path,
        .file (p.fileMode % Node.modeLimit) d.toYaml) := hfind
  have hparse : Descriptor.parse .yaml d.toYaml = .ok d := hread
  simp only [Descriptor.load, Disk.read, hfound, format_storedDescriptor h, hparse]

/-- A project that is generated without a formatter stands, under whatever conditions it was. If
nothing hinders, generating it once more, with the same placement, from its descriptor or from the
file that keeps it, gives the same path and leaves the disk as it is. -/
theorem regeneration_changes_nothing (programs again : Programs) (o : Conditions) (d : Descriptor)
    (p : Placement) (disk : Disk) (path : String) (hexisting : p.existing = .overwrite)
    (hformat : p.format = false) (hrun : ((generate programs d p).runOn disk o).1 = .ok path) :
    let disk' := ((generate programs d p).runOn disk o).2
    (∀ x ∈ entries d p, x.Stands p disk') ∧
    (generate again d p).runOn disk' = (.ok path, disk') ∧
    (Descriptor.ofYaml d.toYaml = .ok d →
      (generateFromFile again (Path.join path (descriptorFile d.info.name)) p).runOn disk' =
        (.ok path, disk')) := by
  intro disk'
  have houtcome : Outcome programs o d p disk ((generate programs d p).runOn disk o) :=
    generate_outcome programs o d p disk
  obtain ⟨rfl, hstands, -⟩ := houtcome.complete_of_ok hrun
  have hname : Naming.isProjectName d.info.name = true := houtcome.isProjectName_of_ok hrun
  have hagain : (generate again d p).runOn disk' = (.ok (directory d p), disk') :=
    (runOn_generate_eq_self_iff again hname hexisting hformat).mpr hstands
  refine ⟨hstands, hagain, fun hread => ?_⟩
  have hstored : (storedDescriptor d p).Stands p disk' := hstands _ (by simp [entries, files])
  have hload := load_storedDescriptor ((Naming.isProjectName_iff _).mp hname) hstored hread
  change (generateFromFile again (storedDescriptor d p).path p).runOn disk' = _
  unfold generateFromFile
  rw [Action.runOn_bind, Action.runOn_adapt, Action.runOn_look, hload]
  exact hagain

/-- The directory of a project and its stub are there, with another text and other modes. -/
def staleDisk : Disk :=
  { nodes :=
      [([], .directory 0o755), (["star-fleet"], .directory 0o700),
       (["star-fleet", "star-fleet.rs"], .file 0o600 "mod gen;\n")] }

/-- Over what is there already. -/
def overwriting : Placement := { existing := .overwrite, format := false }

theorem room_staleDisk : Room fleet overwriting staleDisk where
  root := by decide +kernel
  short := by decide +kernel
  paths := by decide +kernel
  no_file := by
    have hnone : ∀ x ∈ folders fleet overwriting,
        ∀ n ∈ staleDisk.node? (x.place []), n.isDirectory = true := by
      decide +kernel
    intro x hx mode text hfile
    exact nomatch hnone x hx _ hfile
  no_directory := by
    have hnone : ∀ x ∈ files fleet overwriting,
        ∀ n ∈ staleDisk.node? (x.place []), n.isDirectory = false := by
      decide +kernel
    intro x hx mode hdirectory
    exact nomatch hnone x hx _ hdirectory

/-- Over a stale project, two generations and one from the stored descriptor do what the first does
alone. -/
theorem regeneration_of_fleet_changes_nothing :
    ((generate noPrograms fleet overwriting).runOn staleDisk).1 = .ok "./star-fleet" ∧
    (let disk := ((generate noPrograms fleet overwriting).runOn staleDisk).2
    (generate noPrograms fleet overwriting).runOn disk = (.ok "./star-fleet", disk) ∧
    (generateFromFile noPrograms "./star-fleet/star-fleet.yml" overwriting).runOn disk =
      (.ok "./star-fleet", disk)) := by
  have hreachable : fleet.Reachable := (Descriptor.Reachable.base _).afterAll _
  have hname : Naming.isProjectName fleet.info.name = true := by decide +kernel
  have hread : Descriptor.ofYaml fleet.toYaml = .ok fleet := by
    apply hreachable.wellFormed.parse_eq_ok
    rw [Draft.parse?, Descriptor.toYaml, Descriptor.document,
      Yaml.parse?_toYaml (fleet.regular_document 124)]
    exact fleet.read_shown Yaml.shows_ofDocument
  have hexisting : overwriting.existing ≠ .refuse := by decide
  have hrun := room_staleDisk.generate_isOk noPrograms hname (absurd · hexisting)
    (Artifact.renders hreachable.wellFormed hname) rfl
  obtain ⟨-, hagain, hfile⟩ := regeneration_changes_nothing noPrograms noPrograms .fair fleet
    overwriting staleDisk _ rfl rfl hrun
  exact ⟨hrun, hagain, hfile hread⟩

end Project

end Scaffold
