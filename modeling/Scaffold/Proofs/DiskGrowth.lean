import Scaffold.Disk.Access
import Scaffold.Proofs.Paths

/-!
How a disk grows. While directories are made and files are written, directories stay directories and
all that is not touched stays as it is. So what was found by a path is found by it again, at the
location that its names tell.
-/

namespace Scaffold.Disk

variable {d d' d'' : Disk} {l l' : Location} {path : String}

theorem eq_of_follow {part : String} (h : d.follow l part = .ok l') :
    l' = if part = "." then l else l.enter part := by
  unfold follow at h
  split at h
  · cases h
  · cases h
  · by_cases hdot : part = "."
    · rw [if_pos hdot] at h ⊢
      exact (Except.ok.inj h).symm
    · rw [if_neg hdot] at h ⊢
      unfold Location.enter
      split at h
      · next hup => rw [if_pos hup, Except.ok.inj h]
      · next hup =>
        split at h
        · cases h
        · rw [if_neg hup, Except.ok.inj h]

theorem eq_of_foldlM_follow {parts : List String} (h : parts.foldlM d.follow l = .ok l') :
    l' = (parts.filter (· != ".")).foldl Location.enter l := by
  induction parts generalizing l with
  | nil => exact (Except.ok.inj h).symm
  | cons part parts ih =>
    rw [List.foldlM_cons] at h
    cases hstep : d.follow l part with
    | error e =>
      rw [hstep] at h
      cases h
    | ok next =>
      rw [hstep] at h
      rw [ih h, eq_of_follow hstep]
      by_cases hdot : part = "." <;> simp [hdot]

/-- A path leads where its names tell, if it leads anywhere. -/
theorem eq_of_locate (h : d.locate path = .ok l) : l = Path.location d.home path := by
  unfold locate at h
  split at h
  · cases h
  · split at h
    · cases h
    · split at h
      · cases h
      · exact eq_of_foldlM_follow h

theorem find_eq_ok_iff {n : Node} :
    d.find path = .ok (l, n) ↔
      d.locate path = .ok l ∧ d.node? l = some n ∧
        (Path.endsInSlash path = true → n.isDirectory = true) := by
  constructor
  · intro h
    unfold find at h
    split at h
    · cases h
    · next k hlocate =>
      split at h
      · cases h
      · next m hnode =>
        split at h
        · cases h
        · next hslash =>
          obtain ⟨rfl, rfl⟩ := Prod.mk.inj (Except.ok.inj h)
          exact ⟨hlocate, hnode, fun hends => by simpa [hends] using hslash⟩
  · rintro ⟨hlocate, hnode, hslash⟩
    have hfine : ¬ (Path.endsInSlash path && !n.isDirectory) = true := by
      simpa using hslash
    simp only [find, hlocate, hnode, if_neg hfine]

/-- Directories stay directories. Every location but the touched ones is as it was, or it was empty,
lies on the way, and has become a new directory. -/
structure Grows (onWay : Location → Prop) (touched : List Location) (d d' : Disk) : Prop where
  home_eq : d'.home = d.home
  directory : ∀ l mode, d.node? l = some (.directory mode) →
    ∃ mode', d'.node? l = some (.directory mode')
  untouched : ∀ l, l ∉ touched → d'.node? l = d.node? l ∨
    (onWay l ∧ d.node? l = none ∧ d'.node? l = some (.directory Node.newDirectoryMode))

namespace Grows

variable {onWay onWay' : Location → Prop} {touched touched' : List Location}

theorem refl (d : Disk) : Grows onWay touched d d where
  home_eq := rfl
  directory := fun _ mode h => ⟨mode, h⟩
  untouched := fun _ _ => .inl rfl

theorem mono (h : Grows onWay touched d d')
    (hway : ∀ l, onWay l → l ∉ touched' → onWay' l) (hsub : touched ⊆ touched') :
    Grows onWay' touched' d d' where
  home_eq := h.home_eq
  directory := h.directory
  untouched := by
    intro l hl
    rcases h.untouched l (fun hmem => hl (hsub hmem)) with heq | ⟨hw, hnone, hnew⟩
    · exact .inl heq
    · exact .inr ⟨hway l hw hl, hnone, hnew⟩

theorem trans (h : Grows onWay touched d d') (h' : Grows onWay touched d' d'') :
    Grows onWay touched d d'' where
  home_eq := h'.home_eq.trans h.home_eq
  directory := by
    intro l mode hl
    obtain ⟨mode', hl'⟩ := h.directory l mode hl
    exact h'.directory l mode' hl'
  untouched := by
    intro l hl
    rcases h.untouched l hl with heq | ⟨hw, hnone, hnew⟩ <;>
      rcases h'.untouched l hl with heq' | ⟨hw', hnone', hnew'⟩
    · exact .inl (heq'.trans heq)
    · exact .inr ⟨hw', heq.symm.trans hnone', hnew'⟩
    · exact .inr ⟨hw, hnone, heq'.trans hnew⟩
    · rw [hnew] at hnone'
      cases hnone'

/-- What is at an untouched location stays there. -/
theorem node?_eq (h : Grows onWay touched d d') (hl : l ∉ touched) {n : Node}
    (hnode : d.node? l = some n) : d'.node? l = some n := by
  rcases h.untouched l hl with heq | ⟨-, hnone, -⟩
  · exact heq.trans hnode
  · rw [hnone] at hnode
    cases hnode

theorem follow_eq (h : Grows onWay touched d d') {part : String}
    (hstep : d.follow l part = .ok l') : d'.follow l part = .ok l' := by
  unfold follow at hstep ⊢
  cases hnode : d.node? l with
  | none =>
    rw [hnode] at hstep
    cases hstep
  | some n =>
    cases n with
    | file mode text =>
      rw [hnode] at hstep
      cases hstep
    | directory mode =>
      obtain ⟨mode', hnode'⟩ := h.directory l mode hnode
      rw [hnode] at hstep
      rw [hnode']
      exact hstep

theorem foldlM_follow_eq (h : Grows onWay touched d d') {parts : List String}
    (hwalk : parts.foldlM d.follow l = .ok l') : parts.foldlM d'.follow l = .ok l' := by
  induction parts generalizing l with
  | nil => exact hwalk
  | cons part parts ih =>
    rw [List.foldlM_cons] at hwalk ⊢
    cases hstep : d.follow l part with
    | error e =>
      rw [hstep] at hwalk
      cases hwalk
    | ok next =>
      rw [hstep] at hwalk
      rw [h.follow_eq hstep]
      exact ih hwalk

/-- A path that leads somewhere leads there still. -/
theorem locate_eq (h : Grows onWay touched d d') (hlocate : d.locate path = .ok l) :
    d'.locate path = .ok l := by
  unfold locate at hlocate ⊢
  split at hlocate
  · cases hlocate
  · next hnul =>
    split at hlocate
    · cases hlocate
    · next hempty =>
      split at hlocate
      · cases hlocate
      · next hlong =>
        rw [if_neg hnul, if_neg hempty, if_neg hlong, h.home_eq]
        exact h.foldlM_follow_eq hlocate

theorem find_eq (h : Grows onWay touched d d') {n : Node} (hfind : d.find path = .ok (l, n))
    (hl : l ∉ touched) : d'.find path = .ok (l, n) := by
  obtain ⟨hlocate, hnode, hslash⟩ := find_eq_ok_iff.mp hfind
  exact find_eq_ok_iff.mpr ⟨h.locate_eq hlocate, h.node?_eq hl hnode, hslash⟩

end Grows

theorem grows_put (onWay : Location → Prop) {n : Node}
    (h : ∀ mode, d.node? l = some (.directory mode) → n.isDirectory = true) :
    Grows onWay [l] d (d.put l n) where
  home_eq := rfl
  directory := by
    intro k mode hk
    rw [node?_put]
    split
    · next heq =>
      subst heq
      cases n with
      | directory mode' => exact ⟨mode', rfl⟩
      | file mode' text => cases h mode hk
    · exact ⟨mode, hk⟩
  untouched := by
    intro k hk
    rw [node?_put, if_neg (fun heq => hk (List.mem_singleton.mpr heq))]
    exact .inl rfl

theorem eq_put_of_makeDirectory (h : d.makeDirectory path = .ok d') :
    d.locate path = .ok (Path.location d.home path) ∧
      d.node? (Path.location d.home path) = none ∧
      d' = d.put (Path.location d.home path) (.directory Node.newDirectoryMode) := by
  unfold makeDirectory at h
  split at h
  · cases h
  · next l hlocate =>
    obtain rfl := eq_of_locate hlocate
    split at h
    · cases h
    · next hnone => exact ⟨hlocate, hnone, (Except.ok.inj h).symm⟩

/-- A directory that is made is new, and nothing else changes. -/
theorem grows_makeDirectory (h : d.makeDirectory path = .ok d') :
    Grows (· = Path.location d.home path) [] d d' ∧
      d'.find path = .ok (Path.location d.home path, .directory Node.newDirectoryMode) := by
  obtain ⟨hlocate, hnone, rfl⟩ := eq_put_of_makeDirectory h
  have hgrows : Grows (· = Path.location d.home path) [Path.location d.home path] d
      (d.put (Path.location d.home path) (.directory Node.newDirectoryMode)) :=
    grows_put _ fun _ _ => rfl
  refine ⟨{ hgrows with untouched := ?_ }, ?_⟩
  · intro k _
    rw [node?_put]
    split
    · next heq =>
      subst heq
      exact .inr ⟨rfl, hnone, rfl⟩
    · exact .inl rfl
  · refine find_eq_ok_iff.mpr ⟨hgrows.locate_eq hlocate, ?_, fun _ => rfl⟩
    rw [node?_put, if_pos rfl]

theorem eq_put_of_write {text : String} (h : d.write path text = .ok d') :
    d.locate path = .ok (Path.location d.home path) ∧ Path.endsInSlash path = false ∧
      (∀ mode, d.node? (Path.location d.home path) ≠ some (.directory mode)) ∧
      ∃ mode, d' = d.put (Path.location d.home path) (.file mode text) := by
  unfold write at h
  split at h
  · cases h
  · next l hlocate =>
    obtain rfl := eq_of_locate hlocate
    split at h
    · cases h
    · next hslash =>
      have hends : Path.endsInSlash path = false := Bool.eq_false_iff.mpr hslash
      split at h
      · cases h
      · next mode old hold =>
        exact ⟨hlocate, hends, by simp [hold], mode, (Except.ok.inj h).symm⟩
      · next hnone =>
        exact ⟨hlocate, hends, by simp [hnone], Node.newFileMode, (Except.ok.inj h).symm⟩

/-- A text that is written is found, and nothing else changes. -/
theorem grows_write (onWay : Location → Prop) {text : String} (h : d.write path text = .ok d') :
    Grows onWay [Path.location d.home path] d d' ∧
      ∃ mode, d'.find path = .ok (Path.location d.home path, .file mode text) := by
  obtain ⟨hlocate, hends, hfile, mode, rfl⟩ := eq_put_of_write h
  have hgrows : Grows onWay [Path.location d.home path] d
      (d.put (Path.location d.home path) (.file mode text)) :=
    grows_put _ fun mode' hdir => absurd hdir (hfile mode')
  refine ⟨hgrows, mode, find_eq_ok_iff.mpr ⟨hgrows.locate_eq hlocate, ?_, ?_⟩⟩
  · rw [node?_put, if_pos rfl]
  · rw [hends]
    exact fun hfalse => nomatch hfalse

/-- Whether a file can be written does not depend on its text, nor on what changes elsewhere. -/
theorem Grows.write_isOk {touched : List Location} (h : Grows (fun _ => False) touched d d')
    {text : String} (hwrite : (d.write path text).isOk = true)
    (hpath : Path.location d.home path ∉ touched) (text' : String) :
    (d'.write path text').isOk = true := by
  cases hd : d.write path text with
  | error e =>
    rw [hd] at hwrite
    cases hwrite
  | ok d₁ =>
    obtain ⟨hlocate, hends, hfile, -⟩ := eq_put_of_write hd
    have hnode := (h.untouched _ hpath).resolve_right And.left
    unfold write
    rw [h.locate_eq hlocate]
    dsimp only
    rw [if_neg (Bool.eq_false_iff.mp hends), hnode]
    cases hn : d.node? (Path.location d.home path) with
    | none => rfl
    | some n =>
      cases n with
      | directory mode => exact absurd hn (hfile mode)
      | file mode old => rfl

/-- The mode of what is found can be set, and nothing else changes. -/
theorem grows_setMode (onWay : Location → Prop) {n : Node} (mode : Nat)
    (h : d.find path = .ok (l, n)) :
    ∃ d', d.setMode path mode = .ok d' ∧ Grows onWay [l] d d' ∧
      d'.find path = .ok (l, n.withMode (mode % Node.modeLimit)) := by
  obtain ⟨hlocate, hnode, hslash⟩ := find_eq_ok_iff.mp h
  have hkind : (n.withMode (mode % Node.modeLimit)).isDirectory = n.isDirectory := by
    cases n <;> rfl
  have hgrows : Grows onWay [l] d (d.put l (n.withMode (mode % Node.modeLimit))) := by
    refine grows_put _ fun mode' hdir => ?_
    rw [hkind, Option.some.inj (hnode.symm.trans hdir)]
    rfl
  refine ⟨_, by rw [setMode, h], hgrows, find_eq_ok_iff.mpr ⟨hgrows.locate_eq hlocate, ?_, ?_⟩⟩
  · rw [node?_put, if_pos rfl]
  · rwa [hkind]

end Scaffold.Disk
