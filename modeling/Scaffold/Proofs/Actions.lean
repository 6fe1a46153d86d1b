import Scaffold.Disk.Action

/-!
How actions run. What a compound action does is what its parts do in turn, up to the first that
fails. Every failure of it is a failure of one of its parts, so what holds of the errors of the
parts holds of those of the whole.
-/

namespace Scaffold

namespace Conditions

variable {o : Conditions} {c : Change} {disk disk' : Disk}

theorem attempt_eq_ok_iff :
    o.attempt c disk = .ok disk' ↔ o disk c = none ∧ c.apply disk = .ok disk' := by
  unfold attempt
  cases o disk c <;> simp

theorem attempt_fair (c : Change) (disk : Disk) : fair.attempt c disk = c.apply disk := rfl

end Conditions

namespace Action

variable {ε δ α β : Type}

theorem runOn_bind (x : Action ε α) (f : α → Action ε β) (disk : Disk) (o : Conditions) :
    (x >>= f).runOn disk o =
      match x.runOn disk o with
      | (.ok a, disk') => (f a).runOn disk' o
      | (.error e, disk') => (.error e, disk') := by
  simp only [runOn, ExceptT.run_bind, ReaderT.run_bind, StateT.run_bind]
  cases StateT.run ((ExceptT.run x).run o) disk with
  | mk result disk' => cases result <;> rfl

theorem runOn_adapt (x : Action δ α) (g : δ → ε) (disk : Disk) (o : Conditions) :
    Action.runOn (ExceptT.adapt g x) disk o =
      ((x.runOn disk o).1.mapError g, (x.runOn disk o).2) := by
  simp only [runOn, ExceptT.run_adapt, ReaderT.run_map, StateT.run_map]
  rfl

/-- What an action did before it failed is still there when the failure is caught. -/
theorem runOn_tryCatch (x : Action ε α) (f : ε → Action ε α) (disk : Disk) (o : Conditions) :
    Action.runOn (tryCatch x f) disk o =
      match x.runOn disk o with
      | (.ok a, disk') => (.ok a, disk')
      | (.error e, disk') => (f e).runOn disk' o := by
  change (StateT.run ((ExceptT.run (ExceptT.tryCatch x f)).run o) disk) = _
  simp only [ExceptT.tryCatch, ExceptT.run_mk, ReaderT.run_bind, StateT.run_bind, runOn]
  change (bind (StateT.run ((ExceptT.run x).run o) disk) _) = _
  cases StateT.run ((ExceptT.run x).run o) disk with
  | mk result disk' => cases result <;> rfl

theorem runOn_get (disk : Disk) (o : Conditions) :
    Action.runOn (get : Action ε Disk) disk o = (.ok disk, disk) := rfl

theorem runOn_look (f : Disk → Except ε α) (disk : Disk) (o : Conditions) :
    Action.runOn (look f) disk o = (f disk, disk) := by
  unfold look
  rw [runOn_bind, runOn_get]
  dsimp only
  cases f disk <;> rfl

theorem runOn_change (f : Disk → Except ε Disk) (disk : Disk) (o : Conditions) :
    (change f).runOn disk o =
      match f disk with
      | .ok disk' => (.ok (), disk')
      | .error e => (.error e, disk) := by
  unfold change
  rw [runOn_bind, runOn_get]
  dsimp only
  cases f disk <;> rfl

/-- A change that fails, from whatever reason, leaves the disk as it is. -/
theorem runOn_perform (c : Change) (disk : Disk) (o : Conditions) :
    (perform c).runOn disk o =
      match o.attempt c disk with
      | .ok disk' => (.ok (), disk')
      | .error e => (.error e, disk) := by
  have hread : Action.runOn (read : Action DiskError Conditions) disk o = (.ok o, disk) := rfl
  unfold perform
  rw [runOn_bind, hread]
  dsimp only
  rw [runOn_change]
  cases o.attempt c disk <;> rfl

/-- Whatever the disk and whatever hinders, the action fails with no errors but these. -/
def FailsWith (P : ε → Prop) (x : Action ε α) : Prop :=
  ∀ disk o e, (x.runOn disk o).1 = .error e → P e

namespace FailsWith

variable {P : ε → Prop}

theorem pure (a : α) : FailsWith P (Pure.pure a) := by
  intro disk o e h
  cases h

theorem throw {e : ε} (he : P e) : FailsWith P (throw e : Action ε α) := by
  intro disk o e' h
  cases h
  exact he

theorem get : FailsWith P (get : Action ε Disk) := by
  intro disk o e h
  cases h

theorem bind {x : Action ε α} {f : α → Action ε β} (hx : FailsWith P x)
    (hf : ∀ a, FailsWith P (f a)) : FailsWith P (x >>= f) := by
  intro disk o e h
  rw [runOn_bind] at h
  cases hrun : x.runOn disk o with
  | mk result disk' =>
    rw [hrun] at h
    cases result with
    | ok a => exact hf a disk' o e h
    | error e' =>
      cases h
      exact hx disk o e (by rw [hrun])

/-- What stands behind a failure is never reached. -/
theorem throw_bind {e : ε} {f : α → Action ε β} (he : P e) : FailsWith P (throwThe ε e >>= f) := by
  intro disk o e' h
  cases h
  exact he

theorem adapt {x : Action δ α} {g : δ → ε} (hg : ∀ e, P (g e)) :
    FailsWith P (ExceptT.adapt g x : Action ε α) := by
  intro disk o e h
  rw [runOn_adapt] at h
  cases hrun : (x.runOn disk o).1 with
  | ok a =>
    rw [hrun] at h
    cases h
  | error e' =>
    rw [hrun] at h
    cases h
    exact hg e'

theorem look {f : Disk → Except ε α} (hf : ∀ disk e, f disk = .error e → P e) :
    FailsWith P (Action.look f) := by
  refine bind get fun disk => ?_
  cases hread : f disk with
  | ok a => exact pure a
  | error e => exact throw (hf disk e hread)

theorem forM {xs : List α} {f : α → Action ε PUnit} (h : ∀ x ∈ xs, FailsWith P (f x)) :
    FailsWith P (xs.forM f) := by
  induction xs with
  | nil => exact pure _
  | cons x xs ih =>
    exact bind (h x List.mem_cons_self) fun _ => ih fun y hy => h y (List.mem_cons_of_mem x hy)

end FailsWith

end Action

end Scaffold
