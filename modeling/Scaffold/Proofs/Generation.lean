import Scaffold.Proofs.Directories
import Scaffold.Proofs.ProjectFiles

/-!
How a generation runs. A step makes its entry, or leaves all as it was but for new directories on
the way, or has written a file whose mode it may not set. So the entries that stand are always the
first ones.
-/

namespace Scaffold.Project

open Disk (Grows)

variable {o : Conditions} {d : Descriptor} {p : Placement} {x : Entry} {disk disk' : Disk}
  {onWay : Location → Prop}

/-- The error comes from the disk below the entry, or it is why the entry has no text. -/
def Entry.Blames (x : Entry) (e : ProjectError) : Prop :=
  (∃ e', e = .disk x.path e') ∨ x = .file x.path (.error e)

/-- How making an entry ends: it stands, or it is to blame and there are only new directories. A
file may also hold its text without its mode. -/
inductive Entry.Ends (o : Conditions) (p : Placement) (onWay : Location → Prop) (x : Entry)
    (disk : Disk) : Except ProjectError Unit × Disk → Prop
  | made {disk' : Disk} (grows : Grows onWay [x.place disk.home] disk disk')
      (stands : x.Stands p disk') : Ends o p onWay x disk (.ok (), disk')
  | unfinished {disk' : Disk} {e : DiskError} (grows : Grows onWay [x.place disk.home] disk disk')
      (holds : x.Holds disk') (hindered : o disk' (.setMode x.path p.fileMode) = some e) :
      Ends o p onWay x disk (.error (.disk x.path e), disk')
  | failed {disk' : Disk} {e : ProjectError} (grows : Grows onWay [] disk disk')
      (blames : x.Blames e) : Ends o p onWay x disk (.error e, disk')

theorem Entry.Stands.grows {touched : List Location} (h : x.Stands p disk)
    (hgrows : Grows onWay touched disk disk') (hx : x.place disk.home ∉ touched) :
    x.Stands p disk' := by
  cases x with
  | folder path =>
    unfold Stands at h ⊢
    rw [hgrows.home_eq]
    exact hgrows.find_eq h hx
  | file path text =>
    obtain ⟨t, ht, hfind⟩ := h
    refine ⟨t, ht, ?_⟩
    rw [hgrows.home_eq]
    exact hgrows.find_eq hfind hx

/-- The mode of what is there is set, unless this is hindered. -/
theorem setMode_cases (o : Conditions) (onWay : Location → Prop) {path : String} {l : Location}
    {n : Node} (mode : Nat) (h : disk.find path = .ok (l, n)) :
    (∃ disk', (Action.perform (.setMode path mode)).runOn disk o = (.ok (), disk') ∧
      Grows onWay [l] disk disk' ∧
      disk'.find path = .ok (l, n.withMode (mode % Node.modeLimit))) ∨
    ∃ e, o disk (.setMode path mode) = some e ∧
      (Action.perform (.setMode path mode)).runOn disk o = (.error e, disk) := by
  rw [Action.runOn_perform, Conditions.attempt]
  cases hindered : o disk (.setMode path mode) with
  | some e => exact .inr ⟨e, rfl, rfl⟩
  | none =>
    obtain ⟨disk', hset, hgrows, hfind⟩ := Disk.grows_setMode onWay mode h
    simp only [Change.apply, hset]
    exact .inl ⟨disk', rfl, hgrows, hfind⟩

/-- Once a directory is there its mode is set, unless this is hindered. -/
theorem makeDirectory_of_made (p : Placement) (onWay : Location → Prop) {path : String}
    (hmade : (Disk.makeDirectories path).runOn disk o = (.ok (), disk'))
    (hthere : disk'.isDirectoryAt path = true) :
    (∃ disk'', (makeDirectory p path).runOn disk o = (.ok (), disk'') ∧
      Grows onWay [Path.location disk'.home path] disk' disk'' ∧
      (Entry.folder path).Stands p disk'') ∨
    ∃ e, o disk' (.setMode path p.directoryMode) = some e ∧
      (makeDirectory p path).runOn disk o = (.error (.disk path e), disk') := by
  obtain ⟨mode, hfind⟩ := Disk.isDirectoryAt_iff.mp hthere
  unfold makeDirectory
  rw [Action.runOn_adapt, Action.runOn_bind, hmade]
  dsimp only
  rcases setMode_cases o onWay p.directoryMode hfind with
    ⟨disk'', hset, hgrows, hfind'⟩ | ⟨e, hindered, hset⟩
  · rw [hset]
    refine .inl ⟨disk'', rfl, hgrows, ?_⟩
    unfold Entry.Stands
    rw [hgrows.home_eq]
    exact hfind'
  · rw [hset]
    exact .inr ⟨e, hindered, rfl⟩

theorem ends_makeDirectory (o : Conditions) {path : String} (hpath : path ≠ "")
    (hway : ∀ l, Path.Passes disk.home path l → onWay l) :
    (Entry.folder path).Ends o p onWay disk ((makeDirectory p path).runOn disk o) := by
  have hmakes := Disk.makes_makeDirectories hpath o disk
  cases hmade : (Disk.makeDirectories path).runOn disk o with
  | mk result disk' =>
    rw [hmade] at hmakes
    have hgrows : Grows onWay [] disk disk' :=
      hmakes.grows.mono (fun l hl _ => hway l hl) (List.Subset.refl [])
    cases result with
    | error e =>
      have hfails : (makeDirectory p path).runOn disk o = (.error (.disk path e), disk') := by
        unfold makeDirectory
        rw [Action.runOn_adapt, Action.runOn_bind, hmade]
        rfl
      rw [hfails]
      exact .failed hgrows (.inl ⟨e, rfl⟩)
    | ok _ =>
      rcases makeDirectory_of_made p onWay hmade (hmakes.there rfl) with
        ⟨disk'', hrun, hgrows', hstands⟩ | ⟨e, -, hrun⟩
      · rw [hrun]
        rw [hgrows.home_eq] at hgrows'
        exact .made ((hgrows.mono (fun l hl _ => hl) (List.nil_subset _)).trans hgrows') hstands
      · rw [hrun]
        exact .failed hgrows (.inl ⟨_, rfl⟩)

/-- A file is written and has its mode, or it is written and its mode may not be set, or nothing
changes. -/
theorem writeFile_cases (o : Conditions) (p : Placement) (onWay : Location → Prop) (disk : Disk)
    (path text : String) :
    (∃ disk', (writeFile p path text).runOn disk o = (.ok (), disk') ∧
      Grows onWay [Path.location disk.home path] disk disk' ∧
      (Entry.file path (.ok text)).Stands p disk') ∨
    (∃ disk' e, o disk' (.setMode path p.fileMode) = some e ∧
      (writeFile p path text).runOn disk o = (.error (.disk path e), disk') ∧
      Grows onWay [Path.location disk.home path] disk disk' ∧
      (Entry.file path (.ok text)).Holds disk') ∨
    ∃ e, o.attempt (.write path text) disk = .error e ∧
      (writeFile p path text).runOn disk o = (.error (.disk path e), disk) := by
  unfold writeFile
  rw [Action.runOn_adapt, Action.runOn_bind, Action.runOn_perform]
  cases hwrite : o.attempt (.write path text) disk with
  | error e => exact .inr (.inr ⟨e, rfl, rfl⟩)
  | ok disk' =>
    obtain ⟨hgrows, mode, hfind⟩ :=
      Disk.grows_write onWay (Conditions.attempt_eq_ok_iff.mp hwrite).2
    rw [← hgrows.home_eq] at hfind
    dsimp only
    rcases setMode_cases o onWay p.fileMode hfind with
      ⟨disk'', hset, hgrows', hfind'⟩ | ⟨e, hindered, hset⟩
    · rw [hset]
      rw [hgrows.home_eq] at hgrows'
      refine .inl ⟨disk'', rfl, hgrows.trans hgrows', text, rfl, ?_⟩
      rw [hgrows'.home_eq]
      exact hfind'
    · rw [hset]
      exact .inr (.inl ⟨disk', e, hindered, rfl, hgrows, text, mode, rfl, hfind⟩)

theorem Entry.ends_make
    (hfolder : ∀ path, x = .folder path → path ≠ "" ∧ ∀ l, Path.Passes disk.home path l → onWay l) :
    x.Ends o p onWay disk ((x.make p).runOn disk o) := by
  cases x with
  | folder path =>
    obtain ⟨hpath, hway⟩ := hfolder path rfl
    exact ends_makeDirectory o hpath hway
  | file path text =>
    cases text with
    | ok text =>
      change Entry.Ends o p onWay _ disk ((writeFile p path text).runOn disk o)
      rcases writeFile_cases o p onWay disk path text with
        ⟨disk', hrun, hgrows, hstands⟩ | ⟨disk', e, hindered, hrun, hgrows, hholds⟩ | ⟨e, -, hrun⟩
      · rw [hrun]
        exact .made hgrows hstands
      · rw [hrun]
        exact .unfinished hgrows hholds hindered
      · rw [hrun]
        exact .failed (.refl disk) (.inl ⟨e, rfl⟩)
    | error e => exact .failed (.refl disk) (.inr rfl)

/-- How making entries in turn ends: all stand, or the first ones do and the next is to blame. The
next may also be a file that holds its text and whose mode may not be set. -/
inductive Ends (o : Conditions) (p : Placement) (onWay : Location → Prop) (xs : List Entry)
    (disk : Disk) : Except ProjectError Unit × Disk → Prop
  | made {disk' : Disk} (grows : Grows onWay (xs.map (Entry.place disk.home)) disk disk')
      (stands : ∀ x ∈ xs, x.Stands p disk') : Ends o p onWay xs disk (.ok (), disk')
  | unfinished {disk' : Disk} {e : DiskError} (k : Nat) {x : Entry}
      (grows : Grows onWay ((xs.take (k + 1)).map (Entry.place disk.home)) disk disk')
      (stands : ∀ x ∈ xs.take k, x.Stands p disk') (next : xs[k]? = some x)
      (holds : x.Holds disk') (hindered : o disk' (.setMode x.path p.fileMode) = some e) :
      Ends o p onWay xs disk (.error (.disk x.path e), disk')
  | failed {disk' : Disk} {e : ProjectError} (k : Nat) {x : Entry}
      (grows : Grows onWay ((xs.take k).map (Entry.place disk.home)) disk disk')
      (stands : ∀ x ∈ xs.take k, x.Stands p disk') (next : xs[k]? = some x)
      (blames : x.Blames e) : Ends o p onWay xs disk (.error e, disk')

/-- An entry that was made stands until the end, since the others are in other places. -/
theorem Ends.cons {xs : List Entry} {run : Except ProjectError Unit × Disk}
    (hgrows : Grows onWay [x.place disk.home] disk disk') (hstands : x.Stands p disk')
    (hplace : x.place disk.home ∉ xs.map (Entry.place disk.home))
    (h : Ends o p onWay xs disk' run) : Ends o p onWay (x :: xs) disk run := by
  have hhome := hgrows.home_eq
  have hjoin {touched : List Location} {disk'' : Disk} (h : Grows onWay touched disk' disk'') :
      Grows onWay (x.place disk.home :: touched) disk disk'' :=
    (hgrows.mono (fun l hl _ => hl) (by simp)).trans (h.mono (fun l hl _ => hl) (by simp))
  rw [← hhome] at hplace
  have hout (k : Nat) : x.place disk'.home ∉ (xs.take k).map (Entry.place disk'.home) := by
    rw [List.map_take]
    exact fun hmem => hplace (List.mem_of_mem_take hmem)
  cases h with
  | made grows stands =>
    have hkeep := hstands.grows grows hplace
    rw [hhome] at grows
    exact .made (hjoin grows) (List.forall_mem_cons.mpr ⟨hkeep, stands⟩)
  | unfinished k grows stands next holds hindered =>
    have hkeep := hstands.grows grows (hout (k + 1))
    rw [hhome] at grows
    exact .unfinished (k + 1) (hjoin grows) (List.forall_mem_cons.mpr ⟨hkeep, stands⟩) next holds
      hindered
  | failed k grows stands next blames =>
    have hkeep := hstands.grows grows (hout k)
    rw [hhome] at grows
    exact .failed (k + 1) (hjoin grows) (List.forall_mem_cons.mpr ⟨hkeep, stands⟩) next blames

theorem ends_forM {home : Location} {xs : List Entry}
    (hplaces : (xs.map (Entry.place home)).Nodup)
    (hmake : ∀ x ∈ xs, ∀ disk : Disk, disk.home = home →
      x.Ends o p onWay disk ((x.make p).runOn disk o))
    (disk : Disk) (hhome : disk.home = home) :
    Ends o p onWay xs disk ((xs.forM (Entry.make p)).runOn disk o) := by
  induction xs generalizing disk with
  | nil => exact .made (.refl disk) (by simp)
  | cons x xs ih =>
    obtain ⟨hmakex, hmakes⟩ := List.forall_mem_cons.mp hmake
    obtain ⟨hplace, hplaces⟩ := List.nodup_cons.mp hplaces
    change Ends o p onWay (x :: xs) disk
      (Action.runOn (x.make p >>= fun _ => xs.forM (Entry.make p)) disk o)
    rw [Action.runOn_bind]
    have hends := hmakex disk hhome
    cases hrun : (x.make p).runOn disk o with
    | mk result disk' =>
      rw [hrun] at hends
      cases hends with
      | made grows stands =>
        exact Ends.cons grows stands (hhome ▸ hplace)
          (ih hplaces hmakes disk' (grows.home_eq.trans hhome))
      | unfinished grows holds hindered =>
        exact .unfinished 0 grows (by simp) rfl holds hindered
      | failed grows blames => exact .failed 0 grows (by simp) rfl blames

/-- The way to the directories of a project. -/
def OnWay (d : Descriptor) (p : Placement) (home l : Location) : Prop :=
  ∃ path, .folder path ∈ folders d p ∧ Path.Passes home path l

theorem ends_entries (h : Naming.IsProjectName d.info.name) (o : Conditions) (disk : Disk) :
    Ends o p (OnWay d p disk.home) (entries d p) disk
      (((entries d p).forM (Entry.make p)).runOn disk o) := by
  refine ends_forM (nodup_places h disk.home) (fun x hx disk' hhome => ?_) disk rfl
  refine Entry.ends_make fun path hpath => ?_
  subst hpath
  have hfolder : .folder path ∈ folders d p := by
    rcases List.mem_append.mp hx with hx | hx
    · exact hx
    · simp [files, artifactFile, storedDescriptor] at hx
  refine ⟨path_ne_empty h hfolder, fun l hl => ⟨path, hfolder, ?_⟩⟩
  rwa [hhome] at hl

/-- What is left to do when all entries stand. -/
def finish (programs : Programs) (d : Descriptor) (p : Placement) :
    Action ProjectError String := do
  if p.format then Action.look (format programs p.formatter (directory d p))
  pure (directory d p)

/-- How a generation ends. -/
inductive Outcome (programs : Programs) (o : Conditions) (d : Descriptor) (p : Placement)
    (disk : Disk) : Except ProjectError String × Disk → Prop
  | invalid (name : ¬ Naming.IsProjectName d.info.name) :
      Outcome programs o d p disk (.error (.invalidName d.info.name), disk)
  | refused (there : disk.isThere (directory d p) = true) (kept : p.existing = .refuse) :
      Outcome programs o d p disk (.error (.alreadyExists (directory d p)), disk)
  | failed {disk' : Disk} {e : ProjectError} (name : Naming.IsProjectName d.info.name)
      (free : p.existing = .refuse → disk.isThere (directory d p) = false)
      (ends : Ends o p (OnWay d p disk.home) (entries d p) disk (.error e, disk')) :
      Outcome programs o d p disk (.error e, disk')
  | unformatted {disk' : Disk} {e : ProjectError} (name : Naming.IsProjectName d.info.name)
      (free : p.existing = .refuse → disk.isThere (directory d p) = false)
      (ends : Ends o p (OnWay d p disk.home) (entries d p) disk (.ok (), disk'))
      (wanted : p.format = true)
      (fails : format programs p.formatter (directory d p) disk' = .error e) :
      Outcome programs o d p disk (.error e, disk')
  | done {disk' : Disk} (name : Naming.IsProjectName d.info.name)
      (free : p.existing = .refuse → disk.isThere (directory d p) = false)
      (ends : Ends o p (OnWay d p disk.home) (entries d p) disk (.ok (), disk'))
      (formatted : p.format = true →
        format programs p.formatter (directory d p) disk' = .ok ()) :
      Outcome programs o d p disk (.ok (directory d p), disk')

theorem writeArtifact_eq (d : Descriptor) (p : Placement) (a : Artifact) :
    writeArtifact d p (directory d p) a = (artifactFile d p a).make p := by
  unfold writeArtifact artifactFile
  generalize a.render d = text
  cases text <;> rfl

/-- A generation is a check of the name, a check of the place, and the entries in turn. -/
theorem runOn_generate (programs : Programs) (o : Conditions) (d : Descriptor) (p : Placement)
    (disk : Disk) :
    (generate programs d p).runOn disk o =
      if Naming.isProjectName d.info.name = true then
        if disk.isThere (directory d p) = true ∧ p.existing = .refuse then
          (.error (.alreadyExists (directory d p)), disk)
        else ((entries d p).forM (Entry.make p) >>= fun _ => finish programs d p).runOn disk o
      else (.error (.invalidName d.info.name), disk) := by
  have hentries : ((entries d p).forM (Entry.make p) >>= fun _ => finish programs d p) = (do
      makeDirectory p (directory d p)
      makeDirectory p (Path.join (directory d p) Artifact.generatedFolder)
      makeDirectory p (Path.join (directory d p) Artifact.commandFolder)
      Artifact.all.forM (writeArtifact d p (directory d p))
      writeFile p (Path.join (directory d p) (descriptorFile d.info.name)) d.toYaml
      finish programs d p) := by
    -- a loop over joined lists is one loop behind the other
    rw [funext (writeArtifact_eq d p)]
    simp only [entries, files, folders, List.forM_eq_forM, List.forM_append, List.forM_map,
      List.forM_cons, List.forM_nil, bind_assoc, bind_pure_unit]
    rfl
  rw [hentries]
  unfold generate
  by_cases hname : Naming.isProjectName d.info.name = true
  · have hnot : ¬ (!Naming.isProjectName d.info.name) = true := by simp [hname]
    have hrefused : (disk.isThere (Path.join p.root d.info.name) && p.existing == .refuse) = true ↔
        disk.isThere (directory d p) = true ∧ p.existing = .refuse := by
      rw [Bool.and_eq_true, beq_iff_eq]
      rfl
    rw [if_pos hname, if_neg hnot, Action.runOn_bind, Action.runOn_get]
    dsimp only
    by_cases hthere : disk.isThere (directory d p) = true ∧ p.existing = .refuse
    · rw [if_pos hthere, if_pos (hrefused.mpr hthere)]
      rfl
    · rw [if_neg hthere, if_neg (mt hrefused.mp hthere)]
      rfl
  · simp only [hname]
    rfl

theorem runOn_generate_of_made (programs : Programs)
    (hname : Naming.isProjectName d.info.name = true)
    (hfree : p.existing = .refuse → disk.isThere (directory d p) = false)
    (hmade : (((entries d p).forM (Entry.make p)).runOn disk o).1 = .ok ()) :
    (generate programs d p).runOn disk o =
      (finish programs d p).runOn (((entries d p).forM (Entry.make p)).runOn disk o).2 o := by
  have hthere : ¬ (disk.isThere (directory d p) = true ∧ p.existing = .refuse) :=
    fun h => Bool.false_ne_true ((hfree h.2).symm.trans h.1)
  rw [runOn_generate, if_pos hname, if_neg hthere, Action.runOn_bind]
  cases hrun : ((entries d p).forM (Entry.make p)).runOn disk o with
  | mk result disk' =>
    rw [hrun] at hmade
    subst hmade
    rfl

theorem generate_outcome (programs : Programs) (o : Conditions) (d : Descriptor) (p : Placement)
    (disk : Disk) : Outcome programs o d p disk ((generate programs d p).runOn disk o) := by
  rw [runOn_generate]
  split
  · next hname =>
    have hname := (Naming.isProjectName_iff d.info.name).mp hname
    split
    · next hthere => exact .refused hthere.1 hthere.2
    · next hthere =>
      have hfree : p.existing = .refuse → disk.isThere (directory d p) = false :=
        fun hrefuse => Bool.eq_false_iff.mpr fun h => hthere ⟨h, hrefuse⟩
      rw [Action.runOn_bind]
      have hends := ends_entries hname o disk (p := p)
      cases hrun : ((entries d p).forM (Entry.make p)).runOn disk o with
      | mk result disk' =>
        rw [hrun] at hends
        cases result with
        | error e => exact .failed hname hfree hends
        | ok _ =>
          dsimp only
          unfold finish
          cases hwanted : p.format with
          | false => exact .done hname hfree hends (by simp [hwanted])
          | true =>
            rw [if_pos rfl, Action.runOn_bind, Action.runOn_look]
            cases hformat : format programs p.formatter (directory d p) disk' with
            | ok _ => exact .done hname hfree hends fun _ => hformat
            | error e => exact .unformatted hname hfree hends hwanted hformat
  · next hname => exact .invalid (mt (Naming.isProjectName_iff d.info.name).mpr hname)

end Scaffold.Project
