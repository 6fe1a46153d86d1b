import Scaffold.Proofs.Rendering
import Scaffold.Proofs.Success

/-!
What a generation does to a disk as a whole, and what it leaves alone. A project that is generated
is complete, and nothing but its own files changes. One that is not is complete up to some file, and
the others are left alone.
-/

namespace Scaffold

/-- The parts of a generation, of which each may fail. -/
inductive ProjectError.Stage where
  | checking | making | formatting

def ProjectError.stage : ProjectError → Stage
  | invalidName _ => .checking
  | alreadyExists _ => .checking
  | descriptor _ => .checking
  | disk _ _ => .making
  | render _ _ => .making
  | formatFailed _ _ => .formatting
  | formatterNotRun _ _ => .formatting

namespace Project

open Disk (Grows)

variable {o : Conditions} {d : Descriptor} {p : Placement} {x : Entry} {disk disk' : Disk}
  {e : ProjectError}

/-- What is to blame for a missing text is the artifact of that place in the order of writing. -/
theorem disk_or_render_of_blames {k : Nat} (hnext : (entries d p)[k]? = some x)
    (h : x.Blames e) :
    (∃ e', e = .disk x.path e') ∨
      ∃ a r, e = .render a r ∧ Artifact.all[k - 3]? = some a ∧ a.render d = .error r := by
  refine h.imp_right fun hfile => ?_
  rw [entries, List.getElem?_append] at hnext
  split at hnext
  · obtain ⟨path, rfl⟩ := mem_folders (List.mem_of_getElem? hnext)
    cases hfile
  · change (files d p)[k - 3]? = some x at hnext
    rw [files, List.getElem?_append] at hnext
    split at hnext
    · rw [List.getElem?_map, Option.map_eq_some_iff] at hnext
      obtain ⟨a, ha, rfl⟩ := hnext
      have htext := (Entry.file.inj hfile).2
      cases hrender : a.render d with
      | ok text =>
        rw [hrender] at htext
        cases htext
      | error r =>
        rw [hrender] at htext
        exact ⟨a, r, (Except.error.inj htext).symm, ha, hrender⟩
    · rw [List.mem_singleton.mp (List.mem_of_getElem? hnext)] at hfile
      cases hfile

theorem stage_of_blames {k : Nat} (hnext : (entries d p)[k]? = some x) (h : x.Blames e) :
    e.stage = .making := by
  rcases disk_or_render_of_blames hnext h with ⟨e', rfl⟩ | ⟨a, r, rfl, -⟩ <;> rfl

theorem stage_of_format_error {programs : Programs} {program dir : String}
    (h : format programs program dir disk = .error e) : e.stage = .formatting := by
  unfold format at h
  split at h <;> cases h <;> rfl

/-- What a path to one of the directories of a project passes outside of them is on the way to the
project. -/
theorem grows_entries
    (h : Grows (OnWay d p disk.home) ((entries d p).map (Entry.place disk.home)) disk disk') :
    Grows (Path.Passes disk.home (directory d p)) ((entries d p).map (Entry.place disk.home))
      disk disk' := by
  refine h.mono ?_ (List.Subset.refl _)
  rintro l ⟨path, hpath, hpasses⟩ hl
  refine (passes_directory hpath hpasses).resolve_left fun hmem => hl ?_
  rw [entries, List.map_append]
  exact List.mem_append_left _ hmem

namespace Outcome

variable {programs : Programs} {run : Except ProjectError String × Disk}

theorem unchanged_of_checking (h : Outcome programs o d p disk run) (herror : run.1 = .error e)
    (hstage : e.stage = .checking) : run.2 = disk := by
  cases h with
  | invalid name => rfl
  | refused there kept => rfl
  | failed name free ends =>
    cases ends with
    | unfinished k grows stands next holds hindered =>
      rw [← Except.error.inj herror] at hstage
      cases hstage
    | failed k grows stands next blames =>
      rw [← Except.error.inj herror, stage_of_blames next blames] at hstage
      cases hstage
  | unformatted name free ends wanted fails =>
    rw [← Except.error.inj herror, stage_of_format_error fails] at hstage
    cases hstage
  | done name free ends formatted => cases herror

theorem unchanged_of_isThere (h : Outcome programs o d p disk run) (hrefuse : p.existing = .refuse)
    (hthere : disk.isThere (directory d p) = true) : run.2 = disk := by
  have hnot : ¬ (p.existing = .refuse → disk.isThere (directory d p) = false) :=
    fun hfree => Bool.false_ne_true ((hfree hrefuse).symm.trans hthere)
  cases h with
  | invalid name => rfl
  | refused there kept => rfl
  | failed name free ends => exact absurd free hnot
  | unformatted name free ends wanted fails => exact absurd free hnot
  | done name free ends formatted => exact absurd free hnot

theorem complete_of_ok (h : Outcome programs o d p disk run) {path : String}
    (hpath : run.1 = .ok path) :
    path = directory d p ∧ (∀ x ∈ entries d p, x.Stands p run.2) ∧
      Grows (Path.Passes disk.home path) ((entries d p).map (Entry.place disk.home))
        disk run.2 := by
  cases h with
  | done name free ends formatted =>
    cases hpath
    cases ends with
    | made grows stands => exact ⟨rfl, stands, grows_entries grows⟩
  | _ => cases hpath

end Outcome

/-- Whatever hinders it, a generation that refuses the name or the place changes nothing, and
nothing changes where something is in a place that is not to be written over. One that returns a
path, and runs no formatter, leaves there the directories, the rendered files and the descriptor of
the project. All else is as it was, but for directories that were missing on the way. Where there is
room and nothing hinders, a project with a valid name and with texts is generated. -/
theorem generation_changes_only_project (programs : Programs) (o : Conditions) (d : Descriptor)
    (p : Placement) (disk : Disk) :
    let run := (generate programs d p).runOn disk o
    (∀ e, run.1 = .error e → e.stage = .checking → run.2 = disk) ∧
    (p.existing = .refuse → disk.isThere (directory d p) = true → run.2 = disk) ∧
    (∀ path, p.format = false → run.1 = .ok path →
      path = directory d p ∧
      (∀ x ∈ entries d p, x.Stands p run.2) ∧
      Grows (Path.Passes disk.home path) ((entries d p).map (Entry.place disk.home))
        disk run.2) ∧
    (Naming.isProjectName d.info.name = true → (∀ a : Artifact, ∃ text, a.render d = .ok text) →
      (p.existing = .refuse → disk.isThere (directory d p) = false) → Room d p disk →
      p.format = false → ((generate programs d p).runOn disk).1 = .ok (directory d p)) := by
  intro run
  have houtcome : Outcome programs o d p disk run := generate_outcome programs o d p disk
  refine ⟨fun e herror hstage => ?_, fun hrefuse hthere => ?_, fun path _ hpath => ?_,
    fun hname hrender hfree hroom hformat => ?_⟩
  · exact houtcome.unchanged_of_checking herror hstage
  · exact houtcome.unchanged_of_isThere hrefuse hthere
  · exact houtcome.complete_of_ok hpath
  · exact hroom.generate_isOk programs hname hfree hrender hformat

/-- A service without routes. -/
def convoy : Descriptor := Descriptor.base { name := "fleet" }

/-- Below the directory where relative paths start. -/
def here (format : Bool) : Placement := { format := format }

theorem isProjectName_convoy : Naming.isProjectName convoy.info.name = true := by decide +kernel

theorem convoy_renders (a : Artifact) : ∃ text, a.render convoy = .ok text :=
  Artifact.renders (Descriptor.Reachable.base { name := "fleet" }).wellFormed
    isProjectName_convoy a

theorem room_convoy (format : Bool) : Room convoy (here format) Disk.empty := by
  have hnone : ∀ x ∈ entries convoy (here format), Disk.empty.node? (x.place []) = none := by
    change ∀ x ∈ entries convoy (here false), _
    decide +kernel
  have hpaths : ∀ x ∈ entries convoy (here format), x.path.utf8ByteSize < Disk.pathLimit := by
    change ∀ x ∈ entries convoy (here false), _
    decide +kernel
  have hroot : Disk.empty.isDirectoryAt "." = true := by decide +kernel
  refine ⟨hroot, by decide +kernel, hpaths, fun x hx mode text hfile => ?_,
    fun x hx mode hdirectory => ?_⟩
  · exact nomatch (hnone x (List.mem_append_left _ hx)).symm.trans hfile
  · exact nomatch (hnone x (List.mem_append_right _ hx)).symm.trans hdirectory

theorem convoy_free (format : Bool) :
    Disk.empty.isThere (directory convoy (here format)) = false := by
  change Disk.empty.isThere (directory convoy (here false)) = false
  decide +kernel

def noPrograms : Programs := fun _ => none

theorem generate_nameless :
    (generate noPrograms (Descriptor.base { name := "1st" }) (here false)).runOn Disk.empty =
      (.error (.invalidName "1st"), Disk.empty) := by
  have hname : ¬ Naming.isProjectName "1st" = true := by decide +kernel
  rw [runOn_generate]
  exact if_neg hname

/-- A project is generated on an empty disk, and stays as it is when it is generated once more. A
project with no valid name leaves the disk empty. -/
theorem generation_of_convoy_changes_only_project :
    ((generate noPrograms convoy (here false)).runOn Disk.empty).1 = .ok "./fleet" ∧
    (∀ x ∈ entries convoy (here false), x.Stands (here false)
      ((generate noPrograms convoy (here false)).runOn Disk.empty).2) ∧
    ((generate noPrograms convoy (here false)).runOn
        ((generate noPrograms convoy (here false)).runOn Disk.empty).2).2 =
      ((generate noPrograms convoy (here false)).runOn Disk.empty).2 ∧
    ((generate noPrograms (Descriptor.base { name := "1st" }) (here false)).runOn Disk.empty).2 =
      Disk.empty := by
  obtain ⟨-, -, hdone, hsucceeds⟩ :=
    generation_changes_only_project noPrograms .fair convoy (here false) Disk.empty
  have hrun := hsucceeds isProjectName_convoy convoy_renders (fun _ => convoy_free false)
    (room_convoy false) rfl
  obtain ⟨-, hstands, -⟩ := hdone _ rfl hrun
  have hfolder : (Entry.folder (directory convoy (here false))).Stands (here false)
      ((generate noPrograms convoy (here false)).runOn Disk.empty).2 :=
    hstands _ List.mem_cons_self
  have hthere : ((generate noPrograms convoy (here false)).runOn Disk.empty).2.isThere
      (directory convoy (here false)) = true := by
    rw [Disk.isThere, hfolder]
  refine ⟨hrun, hstands, ?_, ?_⟩
  · exact (generation_changes_only_project noPrograms .fair convoy (here false) _).2.1 rfl hthere
  · exact (generation_changes_only_project noPrograms .fair _ (here false) Disk.empty).1
      (.invalidName "1st") (congrArg Prod.fst generate_nameless) rfl

/-- What is in the place of the entry is as it was, or it is a directory that was missing on the way
to the project, and was made. -/
def Entry.LeftAlone (d : Descriptor) (p : Placement) (disk disk' : Disk) (x : Entry) : Prop :=
  disk'.node? (x.place disk.home) = disk.node? (x.place disk.home) ∨
    (Path.Passes disk.home (directory d p) (x.place disk.home) ∧
      disk.node? (x.place disk.home) = none ∧
      disk'.node? (x.place disk.home) = some (.directory Node.newDirectoryMode))

/-- The first of the six files have their texts and their modes; the mode of the last of them may be
missing if setting it was hindered and the generation failed with this. The others are left
alone. -/
structure CleanPrefix (o : Conditions) (d : Descriptor) (p : Placement) (disk : Disk)
    (e : ProjectError) (disk' : Disk) (k : Nat) : Prop where
  le : k ≤ 6
  written : ∀ x ∈ (files d p).take k, x.Holds disk'
  stands : ∀ x ∈ (files d p).take k, x.Stands p disk' ∨
    ((files d p)[k - 1]? = some x ∧
      ∃ e', o disk' (.setMode x.path p.fileMode) = some e' ∧ e = .disk x.path e')
  untouched : ∀ x ∈ (files d p).drop k, x.LeftAlone d p disk disk'

theorem cleanPrefix_self (o : Conditions) (d : Descriptor) (p : Placement) (disk : Disk)
    (e : ProjectError) : CleanPrefix o d p disk e disk 0 where
  le := Nat.zero_le 6
  written := nofun
  stands := nofun
  untouched := fun _ _ => .inl rfl

/-- Of the entries that are made in turn the first three are directories, and a file is in no place
of these; so it can only be on the way to the first. -/
theorem leftAlone_of_grows (hname : Naming.IsProjectName d.info.name) {k : Nat}
    (hgrows : Grows (OnWay d p disk.home) (((entries d p).take k).map (Entry.place disk.home))
      disk disk') (hx : x ∈ (files d p).drop (k - 3)) : x.LeftAlone d p disk disk' := by
  have hnodup := nodup_places hname (p := p) disk.home
  have hdrop : x ∈ (entries d p).drop k := by
    rw [entries, List.drop_append]
    exact List.mem_append_right _ hx
  have hout : x.place disk.home ∉ ((entries d p).take k).map (Entry.place disk.home) := by
    rw [List.map_take]
    refine fun hmem => List.disjoint_take_drop hnodup (Nat.le_refl k) hmem ?_
    rw [← List.map_drop]
    exact List.mem_map_of_mem hdrop
  refine (hgrows.untouched _ hout).imp_right ?_
  rintro ⟨⟨path, hpath, hpasses⟩, hnone, hnew⟩
  refine ⟨(passes_directory hpath hpasses).resolve_left fun hmem => ?_, hnone, hnew⟩
  rw [entries, List.map_append, List.nodup_append] at hnodup
  exact hnodup.2.2 _ hmem _ (List.mem_map_of_mem (List.mem_of_mem_drop hx)) rfl

theorem mem_take_entries {k : Nat} (hx : x ∈ (files d p).take (k - 3)) :
    x ∈ (entries d p).take k := by
  rw [entries, List.take_append]
  exact List.mem_append_right _ hx

theorem cleanPrefix_of_grows (o : Conditions) (hname : Naming.IsProjectName d.info.name) {k : Nat}
    (hk : k ≤ 9)
    (hgrows : Grows (OnWay d p disk.home) (((entries d p).take k).map (Entry.place disk.home))
      disk disk')
    (hstands : ∀ x ∈ (entries d p).take k, x.Stands p disk') (e : ProjectError) :
    CleanPrefix o d p disk e disk' (k - 3) := by
  have hfiles : ∀ x ∈ (files d p).take (k - 3), x.Stands p disk' :=
    fun x hx => hstands x (mem_take_entries hx)
  exact ⟨by omega, fun x hx => (hfiles x hx).holds, fun x hx => .inl (hfiles x hx),
    fun x hx => leftAlone_of_grows hname hgrows hx⟩

theorem cleanPrefix_of_hindered (hname : Naming.IsProjectName d.info.name) {k : Nat} {e : DiskError}
    (hgrows : Grows (OnWay d p disk.home)
      (((entries d p).take (k + 1)).map (Entry.place disk.home)) disk disk')
    (hstands : ∀ x ∈ (entries d p).take k, x.Stands p disk') (hnext : (entries d p)[k]? = some x)
    (hholds : x.Holds disk') (hhindered : o disk' (.setMode x.path p.fileMode) = some e) :
    CleanPrefix o d p disk (.disk x.path e) disk' (k + 1 - 3) := by
  have hk : k < 9 := (List.getElem?_eq_some_iff.mp hnext).1
  have hlast : ∀ y ∈ (files d p).take (k + 1 - 3), y.Stands p disk' ∨
      ((files d p)[k + 1 - 3 - 1]? = some y ∧ y = x) := by
    intro y hy
    by_cases hfolder : k < 3
    · rw [Nat.sub_eq_zero_of_le hfolder] at hy
      cases hy
    · have hsucc : k + 1 - 3 = k - 3 + 1 := by omega
      have hfile : (files d p)[k - 3]? = some x := by
        rw [entries, List.getElem?_append_right (Nat.not_lt.mp hfolder)] at hnext
        exact hnext
      rw [hsucc, List.take_add_one, hfile, List.mem_append, Option.mem_toList] at hy
      rcases hy with hy | hy
      · exact .inl (hstands y (mem_take_entries hy))
      · rw [hsucc, ← Option.some.inj hy]
        exact .inr ⟨hfile, rfl⟩
  refine ⟨by omega, fun y hy => ?_, fun y hy => ?_, fun y hy => leftAlone_of_grows hname hgrows hy⟩
  · rcases hlast y hy with hy | ⟨-, rfl⟩
    · exact hy.holds
    · exact hholds
  · refine (hlast y hy).imp_right ?_
    rintro ⟨hfile, rfl⟩
    exact ⟨hfile, e, hhindered, rfl⟩

/-- Where nothing hinders, all of the first files have their modes. -/
theorem CleanPrefix.stands_of_fair {k : Nat} (h : CleanPrefix .fair d p disk e disk' k) :
    ∀ x ∈ (files d p).take k, x.Stands p disk' := by
  intro x hx
  refine (h.stands x hx).resolve_right ?_
  rintro ⟨-, e', hindered, -⟩
  cases hindered

theorem Outcome.stops_between_files {programs : Programs}
    {run : Except ProjectError String × Disk} (h : Outcome programs o d p disk run)
    (herror : run.1 = .error e) :
    ∃ k, CleanPrefix o d p disk e run.2 k ∧
      (∀ a r, e = .render a r → Artifact.all[k]? = some a ∧ a.render d = .error r) ∧
      (e.stage = .formatting →
        k = 6 ∧ format programs p.formatter (directory d p) run.2 = .error e) := by
  cases h with
  | invalid name =>
    cases herror
    exact ⟨0, cleanPrefix_self o d p disk _, nofun, nofun⟩
  | refused there kept =>
    cases herror
    exact ⟨0, cleanPrefix_self o d p disk _, nofun, nofun⟩
  | failed name free ends =>
    cases herror
    cases ends with
    | unfinished k grows stands next holds hindered =>
      exact ⟨k + 1 - 3, cleanPrefix_of_hindered name grows stands next holds hindered, nofun, nofun⟩
    | failed k grows stands next blames =>
      have hk : k < 9 := (List.getElem?_eq_some_iff.mp next).1
      refine ⟨k - 3, cleanPrefix_of_grows o name hk.le grows stands _, ?_, fun hstage => ?_⟩
      · rintro a r rfl
        rcases disk_or_render_of_blames next blames with ⟨e', h⟩ | ⟨a', r', h, hrender⟩
        · cases h
        · cases h
          exact hrender
      · rw [stage_of_blames next blames] at hstage
        cases hstage
  | unformatted name free ends wanted fails =>
    cases herror
    cases ends with
    | made grows stands =>
      have hclean := cleanPrefix_of_grows o name (Nat.le_refl 9) grows stands e
      refine ⟨6, hclean, ?_, fun _ => ⟨rfl, fails⟩⟩
      rintro a r rfl
      cases stage_of_format_error fails
  | done name free ends formatted => cases herror

/-- A generation that fails, from whatever reason, leaves its first files complete and the others
alone, a directory on the way to the project apart. If an artifact has no text, all before it are
written; if the formatter failed or did not run, all are. A descriptor that cannot be loaded changes
nothing. -/
theorem failed_generation_stops_between_files (programs : Programs) (o : Conditions) (p : Placement)
    (disk : Disk) :
    (∀ (d : Descriptor) (e : ProjectError), ((generate programs d p).runOn disk o).1 = .error e →
      ∃ k, CleanPrefix o d p disk e ((generate programs d p).runOn disk o).2 k ∧
        (∀ a r, e = .render a r → Artifact.all[k]? = some a ∧ a.render d = .error r) ∧
        (e.stage = .formatting → k = 6 ∧
          format programs p.formatter (directory d p) ((generate programs d p).runOn disk o).2 =
            .error e)) ∧
    ∀ path e, Descriptor.load path disk = .error e →
      (generateFromFile programs path p).runOn disk o = (.error (.descriptor e), disk) := by
  refine ⟨fun d e herror => ?_, fun path e hload => ?_⟩
  · exact (generate_outcome programs o d p disk).stops_between_files herror
  · unfold generateFromFile
    rw [Action.runOn_bind, Action.runOn_adapt, Action.runOn_look, hload]
    rfl

theorem generate_convoy_unformatted :
    ((generate noPrograms convoy (here true)).runOn Disk.empty).1 =
      .error (.formatterNotRun "cargo" .notFound) := by
  have hname := (Naming.isProjectName_iff _).mp isProjectName_convoy
  have hends := ends_entries hname .fair Disk.empty (p := here true)
  have hmade := (room_convoy true).entries_isOk hname convoy_renders
  rw [runOn_generate_of_made noPrograms isProjectName_convoy (fun _ => convoy_free true) hmade]
  cases hrun : ((entries convoy (here true)).forM (Entry.make (here true))).runOn Disk.empty with
  | mk result disk =>
    rw [hrun] at hends hmade
    cases hends with
    | unfinished => cases hmade
    | failed => cases hmade
    | made grows stands =>
      have hfolder : (Entry.folder (directory convoy (here true))).Stands (here true) disk :=
        stands _ List.mem_cons_self
      have hformat : format noPrograms "cargo" (directory convoy (here true)) disk =
          .error (.formatterNotRun "cargo" .notFound) := by
        have hnul : ¬ "cargo".toList.contains '\x00' = true := by decide
        unfold format runFormatter
        rw [if_neg hnul, hfolder]
        rfl
      change (Action.runOn
        (Action.look (format noPrograms "cargo" (directory convoy (here true))) >>=
          fun _ => pure (directory convoy (here true))) disk).1 = _
      rw [Action.runOn_bind, Action.runOn_look, hformat]

/-- Two routes of one handler, which no descriptor takes. -/
def twins : Descriptor :=
  { convoy with routes :=
      [{ path := "/ships", handler := "Ships" }, { path := "/ships", handler := "Ships" }] }

theorem generate_twins :
    ∃ r, ((generate noPrograms twins (here false)).runOn Disk.empty).1 =
      .error (.render .stub r) := by
  have hstub : (((generate noPrograms twins (here false)).runOn Disk.empty).1 matches
      .error (.render .stub _)) = true := by decide +kernel
  split at hstub
  · next r hrun => exact ⟨r, hrun⟩
  · cases hstub

/-- The mode of the stub cannot be set. -/
def sealedStub : Conditions
  | _, .setMode "./fleet/fleet.rs" _ => some .notFound
  | _, _ => none

theorem generate_sealed :
    ((generate noPrograms convoy (here false)).runOn Disk.empty sealedStub).1 =
      .error (.disk "./fleet/fleet.rs" .notFound) := by
  decide +kernel

/-- Without a formatter, all files of a project are written and stay. With a stub that has no text,
none is written. With a stub whose mode cannot be set, the files up to it are left. -/
theorem generation_of_convoy_stops_between_files :
    CleanPrefix .fair convoy (here true) Disk.empty (.formatterNotRun "cargo" .notFound)
        ((generate noPrograms convoy (here true)).runOn Disk.empty).2 6 ∧
      (∀ x ∈ (files convoy (here true)).take 6, x.Stands (here true)
        ((generate noPrograms convoy (here true)).runOn Disk.empty).2) ∧
      (∃ k r, CleanPrefix .fair twins (here false) Disk.empty (.render .stub r)
          ((generate noPrograms twins (here false)).runOn Disk.empty).2 k ∧
        Artifact.all[k]? = some .stub) ∧
      (∃ k, CleanPrefix sealedStub convoy (here false) Disk.empty
        (.disk "./fleet/fleet.rs" .notFound)
          ((generate noPrograms convoy (here false)).runOn Disk.empty sealedStub).2 k) ∧
      (generateFromFile noPrograms "fleet.yml" (here true)).runOn Disk.empty =
        (.error (.descriptor (.disk "fleet.yml" .notFound)), Disk.empty) := by
  obtain ⟨hfails, hload⟩ :=
    failed_generation_stops_between_files noPrograms .fair (here true) Disk.empty
  obtain ⟨k, hclean, -, hformatting⟩ := hfails convoy _ generate_convoy_unformatted
  obtain ⟨rfl, -⟩ := hformatting rfl
  obtain ⟨r, hrun⟩ := generate_twins
  obtain ⟨k, hnone, hrender, -⟩ :=
    (failed_generation_stops_between_files noPrograms .fair (here false) Disk.empty).1 twins _ hrun
  obtain ⟨j, hsealed, -⟩ := (failed_generation_stops_between_files noPrograms sealedStub
    (here false) Disk.empty).1 convoy _ generate_sealed
  exact ⟨hclean, hclean.stands_of_fair, ⟨k, r, hnone, (hrender .stub r rfl).1⟩, ⟨j, hsealed⟩,
    hload "fleet.yml" _ rfl⟩

/-- The place of the stub is on the way to the root, and becomes a directory. -/
def astray : Placement := { root := "a/fleet/fleet.rs/../..", format := false }

theorem generation_astray_makes_stub_a_directory :
    ((generate noPrograms convoy astray).runOn Disk.empty).1.isOk = false ∧
      ¬ ∃ k ≤ 6,
        (∀ x ∈ (files convoy astray).take k,
          x.Stands astray ((generate noPrograms convoy astray).runOn Disk.empty).2) ∧
        ∀ x ∈ (files convoy astray).drop k,
          ((generate noPrograms convoy astray).runOn Disk.empty).2.node? (x.place []) =
            Disk.empty.node? (x.place []) := by
  have hstub : (artifactFile convoy astray .stub).place [] = ["a", "fleet", "fleet.rs"] := by
    decide +kernel
  have hmade : ((generate noPrograms convoy astray).runOn Disk.empty).1.isOk = false ∧
      ((generate noPrograms convoy astray).runOn Disk.empty).2.home = [] ∧
      ((generate noPrograms convoy astray).runOn Disk.empty).2.node? ["a", "fleet", "fleet.rs"] =
        some (.directory Node.newDirectoryMode) := by
    decide +kernel
  obtain ⟨herror, hhome, hnew⟩ := hmade
  refine ⟨herror, ?_⟩
  rintro ⟨k, -, hwritten, huntouched⟩
  cases k with
  | zero =>
    -- the stub would be as it was, but where nothing was there is a directory
    have hsame := huntouched (artifactFile convoy astray .stub) List.mem_cons_self
    rw [hstub, hnew] at hsame
    cases hsame
  | succ k =>
    -- the stub would be complete, but what is there is no file
    obtain ⟨text, -, hfind⟩ := hwritten (artifactFile convoy astray .stub) List.mem_cons_self
    have hfile : ((generate noPrograms convoy astray).runOn Disk.empty).2.node?
        ((artifactFile convoy astray .stub).place
          ((generate noPrograms convoy astray).runOn Disk.empty).2.home) =
        some (.file (astray.fileMode % Node.modeLimit) text) :=
      (Disk.find_eq_ok_iff.mp hfind).2.1
    rw [hhome, hstub, hnew] at hfile
    cases hfile

end Project

end Scaffold
