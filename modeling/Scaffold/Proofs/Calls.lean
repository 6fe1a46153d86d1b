import Mathlib.Data.List.Basic
import Scaffold.Descriptor.Format

/-!
Calls on a descriptor in place. A call judges its entry before it touches the lists, so a call that
is refused changes nothing. After any run of calls the lists hold what they held before and the
entries that were accepted, in the order of the calls.
-/

namespace Scaffold

/-- Work on a descriptor in place, which may be refused on the way. -/
abbrev Edit := ExceptT Rejection (StateM Descriptor)

namespace Edit

/-- Ends the edit with the rejection, if there is one. -/
def refuse : Option Rejection → Edit Unit
  | some e => throw e
  | none => pure ()

/-- Judges an entry by itself, then against each stored entry in turn, and then stores it. -/
def accept {α : Type} (defect : Option Rejection) (conflict : α → Option Rejection)
    (stored : Descriptor → List α) (store : Descriptor → Descriptor) : Edit Unit := do
  refuse defect
  forM (stored (← get)) fun x => refuse (conflict x)
  modify store

def addRoute (r : Route) : Edit Unit :=
  accept r.defect? r.conflict? Descriptor.routes fun d => { d with routes := d.routes ++ [r] }

def addMiddleware (m : Middleware) : Edit Unit :=
  accept m.defect? m.conflict? Descriptor.middlewares fun d =>
    { d with middlewares := d.middlewares ++ [m] }

def setInfo (i : Info) : Edit Unit := modify fun d => { d with info := i }

/-- What the edit answers, and the descriptor it leaves. -/
def runOn (a : Edit Unit) (d : Descriptor) : Except Rejection Unit × Descriptor := a.run.run d

theorem runOn_refuse (o : Option Rejection) (d : Descriptor) :
    (refuse o).runOn d = (o.elim (.ok ()) .error, d) := by
  cases o <;> rfl

theorem runOn_bind (a : Edit Unit) (f : Unit → Edit Unit) (d : Descriptor) :
    (a >>= f).runOn d =
      match a.runOn d with
      | (.ok u, d') => (f u).runOn d'
      | (.error e, d') => (.error e, d') := by
  simp only [runOn, ExceptT.run_bind, StateT.run_bind]
  cases a.run.run d with
  | mk answer d' => cases answer <;> rfl

theorem runOn_forM_refuse {α : Type} (conflict : α → Option Rejection) (xs : List α)
    (d : Descriptor) :
    Edit.runOn (forM xs fun x => refuse (conflict x)) d =
      ((xs.findSome? conflict).elim (.ok ()) .error, d) := by
  induction xs with
  | nil => rfl
  | cons x xs ih =>
    rw [List.forM_cons, runOn_bind, runOn_refuse]
    cases h : conflict x with
    | none => simpa [h] using ih
    | some e => simp [h]

/-- An entry is refused for its own defect first, then for the earliest stored entry in conflict;
only an entry that is not refused is stored. -/
theorem runOn_accept {α : Type} (defect : Option Rejection) (conflict : α → Option Rejection)
    (stored : Descriptor → List α) (store : Descriptor → Descriptor) (d : Descriptor) :
    (accept defect conflict stored store).runOn d =
      match defect <|> (stored d).findSome? conflict with
      | some e => (.error e, d)
      | none => (.ok (), store d) := by
  unfold accept
  rw [runOn_bind, runOn_refuse]
  cases defect with
  | some e => rfl
  | none =>
    have hloop := runOn_forM_refuse conflict (stored d) d
    change runOn (forM (stored d) (fun x => refuse (conflict x)) >>= fun _ => modify store) d = _
    rw [runOn_bind, hloop]
    cases (stored d).findSome? conflict <;> rfl

end Edit

/-- What can be done to a descriptor that is there. -/
inductive Call where
  | addRoute (r : Route)
  | addMiddleware (m : Middleware)
  | setInfo (i : Info)
  deriving DecidableEq, Repr

namespace Call

def edit : Call → Edit Unit
  | addRoute r => Edit.addRoute r
  | addMiddleware m => Edit.addMiddleware m
  | setInfo i => Edit.setInfo i

/-- The route that the call is to add, if it is to add one. -/
def route? : Call → Option Route
  | addRoute r => some r
  | _ => none

def middleware? : Call → Option Middleware
  | addMiddleware m => some m
  | _ => none

def info? : Call → Option Info
  | setInfo i => some i
  | _ => none

end Call

namespace Descriptor

/-- What the call answers on the descriptor. -/
def answer (d : Descriptor) (c : Call) : Except Rejection Unit := (c.edit.runOn d).1

/-- The descriptor behind the call, whether or not it was refused. -/
def after (d : Descriptor) (c : Call) : Descriptor := (c.edit.runOn d).2

def afterAll (d : Descriptor) (calls : List Call) : Descriptor := calls.foldl after d

/-- The descriptor with the entry of the call, or why there is none. -/
def grow (d : Descriptor) : Call → Except Rejection Descriptor
  | .addRoute r => d.addRoute r
  | .addMiddleware m => d.addMiddleware m
  | .setInfo i => .ok { d with info := i }

/-- A call in place does what growing does, and nothing where growing fails. -/
theorem runOn_edit (d : Descriptor) (c : Call) :
    c.edit.runOn d =
      match d.grow c with
      | .ok d' => (.ok (), d')
      | .error e => (.error e, d) := by
  cases c with
  | addRoute r =>
    simp only [Call.edit, Edit.addRoute, Edit.runOn_accept, grow, Descriptor.addRoute]
    cases r.defect? <|> d.routes.findSome? r.conflict? <;> rfl
  | addMiddleware m =>
    simp only [Call.edit, Edit.addMiddleware, Edit.runOn_accept, grow, Descriptor.addMiddleware]
    cases m.defect? <|> d.middlewares.findSome? m.conflict? <;> rfl
  | setInfo i => rfl

theorem answer_eq_ok_iff (d : Descriptor) (c : Call) :
    d.answer c = .ok () ↔ d.grow c = .ok (d.after c) := by
  simp only [answer, after, runOn_edit]
  cases d.grow c <;> simp

theorem answer_eq_error_iff (d : Descriptor) (c : Call) (e : Rejection) :
    d.answer c = .error e ↔ d.grow c = .error e := by
  simp only [answer, runOn_edit]
  cases d.grow c <;> simp

theorem answer_of_grow {d d' : Descriptor} {c : Call} (h : d.grow c = .ok d') :
    d.answer c = .ok () := by
  simp only [answer, runOn_edit, h]

theorem after_of_grow {d d' : Descriptor} {c : Call} (h : d.grow c = .ok d') :
    d.after c = d' := by
  simp only [after, runOn_edit, h]

/-- A call that is refused leaves the whole descriptor as it was. -/
theorem after_of_answer_error (d : Descriptor) (c : Call) (e : Rejection)
    (h : d.answer c = .error e) : d.after c = d := by
  have hgrow := (answer_eq_error_iff d c e).mp h
  simp only [after, runOn_edit, hgrow]

/-- The calls of a run that were not refused, each judged where it was made. -/
def accepted (d : Descriptor) : List Call → List Call
  | [] => []
  | c :: cs =>
    match d.answer c with
    | .ok _ => c :: (d.after c).accepted cs
    | .error _ => (d.after c).accepted cs

theorem afterAll_cons (d : Descriptor) (c : Call) (cs : List Call) :
    d.afterAll (c :: cs) = (d.after c).afterAll cs := rfl

/-- All that a call does where it is not refused: its entry goes behind its list. -/
theorem eq_of_grow {d d' : Descriptor} {c : Call} (h : d.grow c = .ok d') :
    d' = { info := c.info?.getD d.info
           routes := d.routes ++ c.route?.toList
           middlewares := d.middlewares ++ c.middleware?.toList } := by
  cases c with
  | addRoute r =>
    obtain ⟨-, rfl⟩ := (addRoute_eq_ok_iff d d' r).mp h
    simp [Call.info?, Call.route?, Call.middleware?]
  | addMiddleware m =>
    obtain ⟨-, rfl⟩ := (addMiddleware_eq_ok_iff d d' m).mp h
    simp [Call.info?, Call.route?, Call.middleware?]
  | setInfo i =>
    obtain rfl := Except.ok.inj h
    simp [Call.info?, Call.route?, Call.middleware?]

theorem info_afterAll (d : Descriptor) (calls : List Call) (h : ∀ c ∈ calls, c.info? = none) :
    (d.afterAll calls).info = d.info := by
  induction calls generalizing d with
  | nil => rfl
  | cons c cs ih =>
    rw [afterAll_cons, ih _ fun c' hc' => h c' (List.mem_cons_of_mem c hc')]
    cases hgrow : d.grow c with
    | ok d' => rw [after_of_grow hgrow, eq_of_grow hgrow, h c List.mem_cons_self, Option.getD_none]
    | error e => rw [after_of_answer_error d c e ((answer_eq_error_iff d c e).mpr hgrow)]

/-- A list that takes the entries of the calls holds behind a run what it held before and the
accepted entries, in the order of the calls. -/
theorem stored_afterAll {α : Type} (stored : Descriptor → List α) (taken? : Call → Option α)
    (hstep : ∀ d d' c, grow d c = .ok d' → stored d' = stored d ++ (taken? c).toList)
    (d : Descriptor) (calls : List Call) :
    stored (d.afterAll calls) = stored d ++ (d.accepted calls).filterMap taken? := by
  induction calls generalizing d with
  | nil => exact (List.append_nil _).symm
  | cons c cs ih =>
    rw [afterAll_cons, ih]
    cases h : d.answer c with
    | ok u =>
      have hgrow := hstep d _ c ((answer_eq_ok_iff d c).mp h)
      cases hc : taken? c <;> simp [accepted, h, hgrow, hc]
    | error e => simp [accepted, h, after_of_answer_error d c e h]

theorem routes_afterAll (d : Descriptor) (calls : List Call) :
    (d.afterAll calls).routes = d.routes ++ (d.accepted calls).filterMap Call.route? :=
  stored_afterAll routes Call.route? (fun _ _ _ h => by rw [eq_of_grow h]) d calls

theorem middlewares_afterAll (d : Descriptor) (calls : List Call) :
    (d.afterAll calls).middlewares =
      d.middlewares ++ (d.accepted calls).filterMap Call.middleware? :=
  stored_afterAll middlewares Call.middleware? (fun _ _ _ h => by rw [eq_of_grow h]) d calls

/-- Call `i` of a run is refused, judged on what the calls in front of it left. -/
def Refuses (d : Descriptor) (calls : List Call) (i : ℕ) (e : Rejection) : Prop :=
  ∃ c, calls[i]? = some c ∧ (d.afterAll (calls.take i)).answer c = .error e

/-- The first call of a run that is refused, and why. -/
def FirstRefuses (d : Descriptor) (calls : List Call) (i : ℕ) (e : Rejection) : Prop :=
  d.Refuses calls i e ∧ ∀ j < i, ∀ e', ¬ d.Refuses calls j e'

theorem refuses_zero (d : Descriptor) (c : Call) (cs : List Call) (e : Rejection) :
    d.Refuses (c :: cs) 0 e ↔ d.answer c = .error e := by
  simp [Refuses, afterAll]

theorem refuses_succ (d : Descriptor) (c : Call) (cs : List Call) (i : ℕ) (e : Rejection) :
    d.Refuses (c :: cs) (i + 1) e ↔ (d.after c).Refuses cs i e := by
  simp [Refuses, afterAll]

end Descriptor

end Scaffold
