import Scaffold.Proofs.Actions
import Scaffold.Proofs.DiskGrowth

/-!
Making a directory with all that it stands in. Whether or not this succeeds, all that it does is to
make new directories where the path leads or passes; if it succeeds, a directory is found by the
path. Below a directory that is there it succeeds, if nothing hinders it, and so does writing a
file, by any name that is not too long.
-/

namespace Scaffold.Disk

variable {d d' : Disk} {path : String} {onWay : Location → Prop}

theorem isDirectoryAt_iff :
    d.isDirectoryAt path = true ↔
      ∃ mode, d.find path = .ok (Path.location d.home path, .directory mode) := by
  unfold isDirectoryAt
  split
  · next l n hfind =>
    obtain rfl := eq_of_locate (find_eq_ok_iff.mp hfind).1
    cases n <;> simp [hfind, Node.isDirectory]
  · next e hfind => simp [hfind]

theorem Grows.isDirectoryAt {onWay : Location → Prop} {touched : List Location}
    (h : Grows onWay touched d d') (hthere : d.isDirectoryAt path = true) :
    d'.isDirectoryAt path = true := by
  obtain ⟨mode, hfind⟩ := isDirectoryAt_iff.mp hthere
  obtain ⟨hlocate, hnode, -⟩ := find_eq_ok_iff.mp hfind
  obtain ⟨mode', hnode'⟩ := h.directory _ mode hnode
  refine isDirectoryAt_iff.mpr ⟨mode', find_eq_ok_iff.mpr ⟨?_, ?_, fun _ => rfl⟩⟩
  · rw [h.home_eq]
    exact h.locate_eq hlocate
  · rw [h.home_eq]
    exact hnode'

/-- What a run leaves has only new directories on the way, and one at the path if it succeeds. -/
structure Makes (onWay : Location → Prop) (path : String) (d : Disk)
    (run : Except DiskError Unit × Disk) : Prop where
  grows : Grows onWay [] d run.2
  there : run.1 = .ok () → run.2.isDirectoryAt path = true

theorem runOn_excuse (path : String) (e : DiskError) (d : Disk) (o : Conditions) :
    (excuse path e).runOn d o =
      if d.isDirectoryAt path then (.ok (), d) else (.error e, d) := by
  unfold excuse
  rw [Action.runOn_bind, Action.runOn_get]
  dsimp only
  cases d.isDirectoryAt path <;> rfl

theorem runOn_makeOne (path : String) (d : Disk) (o : Conditions) :
    (makeOne path).runOn d o =
      match o.attempt (.makeDirectory path) d with
      | .ok d' => (.ok (), d')
      | .error e => if d.isDirectoryAt path then (.ok (), d) else (.error e, d) := by
  unfold makeOne
  rw [Action.runOn_tryCatch, Action.runOn_perform]
  cases o.attempt (.makeDirectory path) d with
  | ok d' => rfl
  | error e => exact runOn_excuse path e d o

theorem runOn_makeBelow (path : String) (above : Action DiskError Unit) (d : Disk)
    (o : Conditions) :
    (makeBelow path above).runOn d o =
      if o.attempt (.makeDirectory path) d = .error .notFound then
        (above >>= fun _ => makeOne path).runOn d o
      else (makeOne path).runOn d o := by
  unfold makeBelow
  rw [Action.runOn_tryCatch, runOn_makeOne, Action.runOn_perform]
  cases o.attempt (.makeDirectory path) d with
  | ok d' => rfl
  | error e =>
    cases e with
    | notFound => rfl
    | _ => exact runOn_excuse path _ d o

theorem makes_makeOne (o : Conditions) (hself : onWay (Path.location d.home path)) :
    Makes onWay path d ((makeOne path).runOn d o) := by
  rw [runOn_makeOne]
  cases hmake : o.attempt (.makeDirectory path) d with
  | ok d' =>
    obtain ⟨hgrows, hfind⟩ := grows_makeDirectory (Conditions.attempt_eq_ok_iff.mp hmake).2
    refine ⟨hgrows.mono (fun l hl _ => hl ▸ hself) (List.Subset.refl []), fun _ => ?_⟩
    refine isDirectoryAt_iff.mpr ⟨Node.newDirectoryMode, ?_⟩
    rwa [hgrows.home_eq]
  | error e =>
    cases hthere : d.isDirectoryAt path with
    | true => exact ⟨.refl d, fun _ => hthere⟩
    | false => exact ⟨.refl d, fun h => nomatch h⟩

theorem makes_makeBelow {o : Conditions} {above : Action DiskError Unit}
    (habove : Grows onWay [] d (above.runOn d o).2) (hself : onWay (Path.location d.home path)) :
    Makes onWay path d ((makeBelow path above).runOn d o) := by
  rw [runOn_makeBelow]
  split
  · rw [Action.runOn_bind]
    cases hrun : above.runOn d o with
    | mk result d' =>
      rw [hrun] at habove
      cases result with
      | error e => exact ⟨habove, fun h => nomatch h⟩
      | ok u =>
        have hmakes : Makes onWay path d' ((makeOne path).runOn d' o) :=
          makes_makeOne o (by rwa [habove.home_eq])
        exact ⟨habove.trans hmakes.grows, hmakes.there⟩
  · exact makes_makeOne o hself

/-- The path of the given components from the root or from home. -/
def spelled (fromRoot : Bool) (names : List String) : String :=
  (if fromRoot then "/" else "") ++ String.intercalate "/" names

theorem start_spelled (home : Location) (fromRoot : Bool) {names : List String}
    (h : ∀ s ∈ names, Path.IsPart s) :
    Path.start home (spelled fromRoot names) = if fromRoot then [] else home := by
  cases fromRoot with
  | false =>
    rw [Path.start, spelled, if_neg Bool.false_ne_true, String.empty_append,
      Path.isAbsolute_intercalate h]
  | true =>
    rw [Path.start, spelled, if_pos rfl, Path.isAbsolute_append (by simp)]
    rfl

theorem components_spelled (fromRoot : Bool) {names : List String}
    (h : ∀ s ∈ names, Path.IsPart s ∧ s ≠ ".") :
    Path.components (spelled fromRoot names) = names := by
  have hparts : Path.parts (spelled fromRoot names) = names := by
    have hnames := Path.parts_intercalate fun s hs => (h s hs).1
    cases fromRoot with
    | false => rw [spelled, if_neg Bool.false_ne_true, String.empty_append, hnames]
    | true =>
      have hslash : "/" ++ String.intercalate "/" names =
          "" ++ "/" ++ String.intercalate "/" names := by rw [String.empty_append]
      rw [spelled, if_pos rfl, hslash, Path.parts_append_slash, Path.parts_empty, hnames,
        List.nil_append]
  rw [Path.components, hparts, List.filter_eq_self]
  exact fun s hs => bne_iff_ne.mpr (h s hs).2

/-- By induction from the first component downwards: each directory is made in the one before. -/
theorem grows_makeAll (fromRoot : Bool) {names : List String}
    (h : ∀ s ∈ names, Path.IsPart s ∧ s ≠ ".") (o : Conditions) (d : Disk) :
    Grows
      (fun l => ∃ above, above <+: names.reverse ∧
        above.foldl Location.enter (if fromRoot then [] else d.home) = l)
      [] d ((makeAll (if fromRoot then "/" else "") names).runOn d o).2 := by
  induction names with
  | nil => exact .refl d
  | cons name names ih =>
    obtain ⟨hname, hnames⟩ := List.forall_mem_cons.mp h
    have hall : ∀ s ∈ (name :: names).reverse, Path.IsPart s ∧ s ≠ "." :=
      fun s hs => h s (List.mem_reverse.mp hs)
    have hsub : names.reverse <+: (name :: names).reverse := by
      rw [List.reverse_cons]
      exact List.prefix_append _ _
    refine (makes_makeBelow ?_ ?_).grows
    · refine (ih hnames).mono ?_ (List.Subset.refl [])
      rintro l ⟨above, habove, rfl⟩ -
      exact ⟨above, habove.trans hsub, rfl⟩
    · refine ⟨(name :: names).reverse, List.prefix_refl _, ?_⟩
      change _ = Path.location d.home (spelled fromRoot (name :: names).reverse)
      rw [Path.location, components_spelled fromRoot hall,
        start_spelled d.home fromRoot fun s hs => (hall s hs).1]

/-- All that making a directory changes is new directories where its path leads or passes. -/
theorem makes_makeDirectories (hpath : path ≠ "") (o : Conditions) (d : Disk) :
    Makes (Path.Passes d.home path) path d ((makeDirectories path).runOn d o) := by
  have hparts : ∀ s ∈ (Path.components path).reverse.tail, Path.IsPart s ∧ s ≠ "." := by
    intro s hs
    have hmem := List.mem_reverse.mp (List.mem_of_mem_tail hs)
    obtain ⟨hpart, hdot⟩ := List.mem_filter.mp hmem
    exact ⟨Path.isPart_of_mem_parts hpart, bne_iff_ne.mp hdot⟩
  have hempty : path.isEmpty = false := by simpa using hpath
  unfold makeDirectories
  rw [hempty]
  refine makes_makeBelow ?_ ⟨Path.components path, List.prefix_refl _, rfl⟩
  refine (grows_makeAll (Path.isAbsolute path) hparts o d).mono ?_ (List.Subset.refl [])
  rintro l ⟨above, habove, rfl⟩ -
  refine ⟨above, habove.trans ?_, rfl⟩
  rw [List.tail_reverse, List.reverse_reverse]
  exact List.dropLast_prefix _

variable {directory name : String}

/-- What may stand in a directory: a name downwards, of a length that a disk allows. -/
structure Legal (name : String) : Prop where
  isName : Path.IsName name
  no_nul : '\x00' ∉ name.toList
  short : name.utf8ByteSize ≤ nameLimit

instance (name : String) : Decidable (Legal name) :=
  decidable_of_iff
    (Path.IsName name ∧ '\x00' ∉ name.toList ∧ name.utf8ByteSize ≤ nameLimit)
    ⟨fun ⟨h, h', h''⟩ => ⟨h, h', h''⟩, fun ⟨h, h', h''⟩ => ⟨h, h', h''⟩⟩

theorem mem_join {c : Char} (h : c ∈ (Path.join directory name).toList) :
    c ∈ directory.toList ∨ c = '/' ∨ c ∈ name.toList := by
  unfold Path.join at h
  split at h
  · rw [String.toList_append, List.mem_append] at h
    exact h.imp_right .inr
  · rw [String.toList_append, String.toList_append, List.mem_append, List.mem_append] at h
    rcases h with (h | h) | h
    · exact .inl h
    · exact .inr (.inl (List.mem_singleton.mp h))
    · exact .inr (.inr h)

theorem follow_of_legal {l : Location} {mode : Nat}
    (hnode : d.node? l = some (.directory mode)) (h : Legal name) :
    d.follow l name = .ok (l ++ [name]) := by
  unfold follow
  rw [hnode]
  dsimp only
  rw [if_neg h.isName.2.1, if_neg h.isName.2.2, if_neg (Nat.not_lt.mpr h.short)]

/-- A path leads into a directory that is there, whether or not the name is. -/
theorem locate_join (hthere : d.isDirectoryAt directory = true) (h : Legal name)
    (hlong : (Path.join directory name).utf8ByteSize < pathLimit) :
    d.locate (Path.join directory name) =
      .ok (Path.location d.home (Path.join directory name)) := by
  obtain ⟨mode, hfind⟩ := isDirectoryAt_iff.mp hthere
  obtain ⟨hlocate, hnode, -⟩ := find_eq_ok_iff.mp hfind
  rw [h.isName.location_join]
  unfold locate at hlocate ⊢
  split at hlocate
  · cases hlocate
  · next hnul =>
    split at hlocate
    · cases hlocate
    · next hempty =>
      split at hlocate
      · cases hlocate
      · have hnul' : ¬ (Path.join directory name).toList.contains '\x00' = true := by
          rw [List.contains_iff_mem] at hnul ⊢
          intro hmem
          rcases mem_join hmem with hmem | hmem | hmem
          · exact hnul hmem
          · cases hmem
          · exact h.no_nul hmem
        have hempty' : ¬ (Path.join directory name).isEmpty = true := by
          rw [String.isEmpty_iff]
          exact h.isName.join_ne_empty directory
        rw [if_neg hnul', if_neg hempty', if_neg (Nat.not_le.mpr hlong), Path.parts_join,
          Path.parts_of_isPart h.isName.1, Path.isAbsolute_join directory h.isName.isAbsolute_eq,
          List.foldlM_append, hlocate]
        change [name].foldlM d.follow (Path.location d.home directory) = _
        rw [List.foldlM_cons, follow_of_legal hnode h]
        rfl

/-- A file can be written in a directory that is there, unless a directory is in its place. -/
theorem write_join_isOk (hthere : d.isDirectoryAt directory = true) (h : Legal name)
    (hlong : (Path.join directory name).utf8ByteSize < pathLimit)
    (hfree : ∀ mode, d.node? (Path.location d.home (Path.join directory name)) ≠
      some (.directory mode)) (text : String) :
    (d.write (Path.join directory name) text).isOk = true := by
  unfold write
  rw [locate_join hthere h hlong, h.isName.endsInSlash_join]
  dsimp only
  rw [if_neg Bool.false_ne_true]
  cases hnode : d.node? (Path.location d.home (Path.join directory name)) with
  | none => rfl
  | some n =>
    cases n with
    | directory mode => exact absurd hnode (hfree mode)
    | file mode old => rfl

/-- A directory can be made in one that is there, unless a file is in its place. -/
theorem makeDirectories_join_isOk (hthere : d.isDirectoryAt directory = true) (h : Legal name)
    (hlong : (Path.join directory name).utf8ByteSize < pathLimit)
    (hfree : ∀ mode text, d.node? (Path.location d.home (Path.join directory name)) ≠
      some (.file mode text)) :
    ∃ d', (makeDirectories (Path.join directory name)).runOn d = (.ok (), d') ∧
      Grows (fun _ => False) [Path.location d.home (Path.join directory name)] d d' ∧
      d'.isDirectoryAt (Path.join directory name) = true := by
  have hempty : (Path.join directory name).isEmpty = false := by
    simpa using h.isName.join_ne_empty directory
  have hlocate := locate_join hthere h hlong
  unfold makeDirectories
  rw [hempty, if_neg Bool.false_ne_true, runOn_makeBelow, runOn_makeOne,
    Conditions.attempt_fair, Change.apply]
  cases hnode : d.node? (Path.location d.home (Path.join directory name)) with
  | none =>
    have hmake : d.makeDirectory (Path.join directory name) =
        .ok (d.put (Path.location d.home (Path.join directory name))
          (.directory Node.newDirectoryMode)) := by
      simp only [makeDirectory, hlocate, hnode]
    have hnew : (d.put (Path.location d.home (Path.join directory name))
        (.directory Node.newDirectoryMode)).isDirectoryAt (Path.join directory name) = true :=
      isDirectoryAt_iff.mpr ⟨Node.newDirectoryMode, (grows_makeDirectory hmake).2⟩
    refine ⟨_, ?_, grows_put _ fun _ _ => rfl, hnew⟩
    rw [hmake, if_neg nofun]
  | some n =>
    cases n with
    | file mode text => exact absurd hnode (hfree mode text)
    | directory mode =>
      have hmake : d.makeDirectory (Path.join directory name) = .error .alreadyExists := by
        simp only [makeDirectory, hlocate, hnode]
      have hself : d.isDirectoryAt (Path.join directory name) = true :=
        isDirectoryAt_iff.mpr ⟨mode, find_eq_ok_iff.mpr ⟨hlocate, hnode, fun _ => rfl⟩⟩
      refine ⟨d, ?_, .refl d, hself⟩
      rw [hmake, if_neg nofun]
      dsimp only
      rw [if_pos hself]

end Scaffold.Disk
