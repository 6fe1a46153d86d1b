import Scaffold.Proofs.Calls

/-!
Reading replays a document. The entries of a decoded document are made calls on an empty descriptor,
routes in front of middlewares, and the reading stops at the first call that is refused. It succeeds
exactly if no call is refused, and then the descriptor holds the entries of the document.
-/

namespace Scaffold

namespace Descriptor

/-- Makes the calls in order, up to the first that is refused. -/
def growAll (d : Descriptor) (calls : List Call) : Except Rejection Descriptor :=
  calls.foldlM grow d

theorem growAll_cons (d : Descriptor) (c : Call) (cs : List Call) :
    d.growAll (c :: cs) =
      match d.grow c with
      | .ok d' => d'.growAll cs
      | .error e => .error e := by
  simp only [growAll, List.foldlM_cons]
  cases d.grow c <;> rfl

theorem growAll_append (d : Descriptor) (cs cs' : List Call) :
    d.growAll (cs ++ cs') = d.growAll cs >>= fun d' => d'.growAll cs' := by
  simp only [growAll, List.foldlM_append]

/-- Without a refusal every call is accepted. -/
theorem accepted_of_not_refuses (d : Descriptor) (calls : List Call)
    (h : ∀ i e, ¬ d.Refuses calls i e) : d.accepted calls = calls := by
  induction calls generalizing d with
  | nil => rfl
  | cons c cs ih =>
    have hrest : (d.after c).accepted cs = cs :=
      ih (d.after c) fun i e hi => h (i + 1) e ((refuses_succ d c cs i e).mpr hi)
    cases hc : d.answer c with
    | ok u => simp only [accepted, hc, hrest]
    | error e => exact absurd ((refuses_zero d c cs e).mpr hc) (h 0 e)

theorem growAll_eq_ok_iff (d d' : Descriptor) (calls : List Call) :
    d.growAll calls = .ok d' ↔ (∀ i e, ¬ d.Refuses calls i e) ∧ d' = d.afterAll calls := by
  induction calls generalizing d with
  | nil =>
    have hnone : ∀ i e, ¬ d.Refuses [] i e := fun i e ⟨c, hc, _⟩ => by simp at hc
    simp only [growAll, afterAll, List.foldlM_nil, List.foldl_nil]
    constructor
    · intro h
      exact ⟨hnone, (Except.ok.inj h).symm⟩
    · rintro ⟨-, rfl⟩
      rfl
  | cons c cs ih =>
    rw [growAll_cons]
    cases hc : d.grow c with
    | ok next =>
      have hanswer : d.answer c = .ok () := answer_of_grow hc
      obtain rfl : d.after c = next := after_of_grow hc
      rw [afterAll_cons, ih]
      constructor
      · rintro ⟨hnone, rfl⟩
        refine ⟨fun i e => ?_, rfl⟩
        cases i with
        | zero => simp [refuses_zero, hanswer]
        | succ i => simpa only [refuses_succ] using hnone i e
      · rintro ⟨hnone, rfl⟩
        exact ⟨fun i e hi => hnone (i + 1) e ((refuses_succ d c cs i e).mpr hi), rfl⟩
    | error e =>
      have hanswer : d.answer c = .error e := (answer_eq_error_iff d c e).mpr hc
      constructor
      · intro h
        cases h
      · rintro ⟨hnone, -⟩
        exact absurd ((refuses_zero d c cs e).mpr hanswer) (hnone 0 e)

/-- The run ends with the error of the first call that is refused. -/
theorem growAll_eq_error_iff (d : Descriptor) (calls : List Call) (e : Rejection) :
    d.growAll calls = .error e ↔ ∃ i, d.FirstRefuses calls i e := by
  induction calls generalizing d with
  | nil =>
    constructor
    · intro h
      cases h
    · rintro ⟨i, ⟨c, hc, -⟩, -⟩
      simp at hc
  | cons c cs ih =>
    rw [growAll_cons]
    cases hc : d.grow c with
    | ok next =>
      have hanswer : d.answer c = .ok () := answer_of_grow hc
      obtain rfl : d.after c = next := after_of_grow hc
      rw [ih]
      constructor
      · rintro ⟨i, hi, hfirst⟩
        refine ⟨i + 1, (refuses_succ d c cs i e).mpr hi, fun j hj e' => ?_⟩
        cases j with
        | zero => simp [refuses_zero, hanswer]
        | succ j => simpa only [refuses_succ] using hfirst j (by omega) e'
      · rintro ⟨i, hi, hfirst⟩
        cases i with
        | zero => simp [refuses_zero, hanswer] at hi
        | succ i =>
          refine ⟨i, (refuses_succ d c cs i e).mp hi, fun j hj e' hj' => ?_⟩
          exact hfirst (j + 1) (by omega) e' ((refuses_succ d c cs j e').mpr hj')
    | error e₀ =>
      have hanswer : d.answer c = .error e₀ := (answer_eq_error_iff d c e₀).mpr hc
      have hzero : d.Refuses (c :: cs) 0 e₀ := (refuses_zero d c cs e₀).mpr hanswer
      constructor
      · intro h
        obtain rfl := Except.error.inj h
        exact ⟨0, hzero, fun j hj => absurd hj (Nat.not_lt_zero j)⟩
      · rintro ⟨i, hi, hfirst⟩
        cases i with
        | zero =>
          rw [refuses_zero, hanswer] at hi
          obtain rfl := Except.error.inj hi
          rfl
        | succ i => exact absurd hzero (hfirst 0 (Nat.succ_pos i) e₀)

theorem growAll_addRoute (d : Descriptor) (rs : List Route) :
    d.growAll (rs.map .addRoute) = rs.foldlM Descriptor.addRoute d := by
  simp only [growAll, List.foldlM_map]
  rfl

theorem growAll_addMiddleware (d : Descriptor) (ms : List Middleware) :
    d.growAll (ms.map .addMiddleware) = ms.foldlM Descriptor.addMiddleware d := by
  simp only [growAll, List.foldlM_map]
  rfl

end Descriptor

namespace Draft

/-- The entries of a document as calls, in the order in which they are made. -/
def calls (draft : Draft) : List Call :=
  draft.routes.map .addRoute ++ draft.middlewares.map .addMiddleware

theorem filterMap_route?_calls (draft : Draft) :
    draft.calls.filterMap Call.route? = draft.routes := by
  simp [calls, List.filterMap_map, Function.comp_def, Call.route?]

theorem filterMap_middleware?_calls (draft : Draft) :
    draft.calls.filterMap Call.middleware? = draft.middlewares := by
  simp [calls, List.filterMap_map, Function.comp_def, Call.middleware?]

theorem build_eq_growAll (draft : Draft) :
    draft.build = (Descriptor.base draft.info).growAll draft.calls := by
  rw [calls, Descriptor.growAll_append, Descriptor.growAll_addRoute]
  simp only [Descriptor.growAll_addMiddleware]
  rfl

/-- The descriptor that the calls of a document make of an empty one. -/
def replayed (draft : Draft) : Descriptor :=
  (Descriptor.base draft.info).afterAll draft.calls

/-- The entries of a document side by side, unjudged. -/
def entries (draft : Draft) : Descriptor :=
  { info := draft.info, routes := draft.routes, middlewares := draft.middlewares }

theorem info_replayed (draft : Draft) : draft.replayed.info = draft.info := by
  apply Descriptor.info_afterAll
  intro c hc
  rcases List.mem_append.mp hc with hc | hc
  · obtain ⟨r, -, rfl⟩ := List.mem_map.mp hc
    rfl
  · obtain ⟨m, -, rfl⟩ := List.mem_map.mp hc
    rfl

/-- The entry that stops the reading of a document: the first that is refused. -/
def StopsAt (draft : Draft) (i : ℕ) (e : Rejection) : Prop :=
  (Descriptor.base draft.info).FirstRefuses draft.calls i e

/-- No entry of the document is refused. -/
def Accepted (draft : Draft) : Prop :=
  ∀ i e, ¬ (Descriptor.base draft.info).Refuses draft.calls i e

theorem build_eq_ok_iff (draft : Draft) (d : Descriptor) :
    draft.build = .ok d ↔ draft.Accepted ∧ d = draft.replayed := by
  rw [build_eq_growAll, Descriptor.growAll_eq_ok_iff]
  rfl

theorem build_eq_error_iff (draft : Draft) (e : Rejection) :
    draft.build = .error e ↔ ∃ i, draft.StopsAt i e := by
  rw [build_eq_growAll, Descriptor.growAll_eq_error_iff]
  rfl

/-- A document without a refused entry gives back its entries, all and in their order. -/
theorem replayed_eq_entries (draft : Draft) (h : draft.Accepted) :
    draft.replayed = draft.entries := by
  have haccepted := Descriptor.accepted_of_not_refuses _ _ h
  have hroutes : draft.replayed.routes = draft.routes := by
    rw [replayed, Descriptor.routes_afterAll, haccepted, filterMap_route?_calls]
    rfl
  have hmiddlewares : draft.replayed.middlewares = draft.middlewares := by
    rw [replayed, Descriptor.middlewares_afterAll, haccepted, filterMap_middleware?_calls]
    rfl
  calc
    draft.replayed =
        ⟨draft.replayed.info, draft.replayed.routes, draft.replayed.middlewares⟩ := rfl
    _ = draft.entries := by rw [info_replayed, hroutes, hmiddlewares, entries]

end Draft

namespace Descriptor

theorem parse_eq_ok_iff (f : Format) (s : String) (d : Descriptor) :
    parse f s = .ok d ↔ ∃ draft, Draft.parse? f s = some draft ∧ draft.build = .ok d := by
  unfold parse
  cases Draft.parse? f s with
  | none => simp
  | some draft => cases h : draft.build <;> simp [h]

theorem parse_eq_error_iff {f : Format} {s : String} {draft : Draft}
    (hdecoded : Draft.parse? f s = some draft) (e : ReadError) :
    parse f s = .error e ↔ ∃ r, e = .rejected r ∧ draft.build = .error r := by
  simp only [parse, hdecoded]
  cases h : draft.build <;> simp [eq_comm]

end Descriptor

end Scaffold
