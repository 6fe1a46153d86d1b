import Scaffold.Proofs.DocumentTree

/-!
YAML is read back as it was written. A text is written in a form that is read as text, whatever
value it could be taken for, and a descriptor is its own image under writing and reading.
-/

namespace Scaffold

namespace Yaml

theorem magnitude?_decimal (n : Nat) : magnitude? (Number.decimal n) = some n := by
  have hvalue := Number.digits?_decimal n
  obtain ⟨d, ds, hds, hdigit⟩ := Number.exists_decimal_eq_cons n
  have hmarked : marked? (Number.decimal n) = none := by
    unfold marked?
    split
    · next h => exact absurd (Number.decimal_eq_zero_cons h) (List.cons_ne_nil _ _)
    · next h => exact absurd (Number.decimal_eq_zero_cons h) (List.cons_ne_nil _ _)
    · next h => exact absurd (Number.decimal_eq_zero_cons h) (List.cons_ne_nil _ _)
    · rfl
  have hzero : hasLeadingZero (Number.decimal n) = false := by
    have hsign : dropSign (Number.decimal n) = Number.decimal n := by
      have hdigits : ∀ c ∈ Number.decimalDigits, isSign c = false := by
        simp [Number.decimalDigits, isSign]
      rw [hds, dropSign, hdigits d (Number.mem_decimalDigits hdigit)]
      rfl
    unfold hasLeadingZero
    rw [hsign]
    split
    · next h => exact absurd (Number.decimal_eq_zero_cons h) (List.cons_ne_nil _ _)
    · rfl
  rw [magnitude?, hmarked, hzero, if_neg Bool.false_ne_true, hvalue]

theorem whole?_toString (n : Int) : whole? (toString n) = some n := by
  have hvalue := magnitude?_decimal n.natAbs
  rw [whole?, Number.toList_toString]
  by_cases hn : n < 0
  · rw [if_pos hn]
    simp only [hvalue]
    show some (-(n.natAbs : Int)) = some n
    exact congrArg some (by omega)
  · rw [if_neg hn]
    obtain ⟨d, ds, hds, hdigit⟩ := Number.exists_decimal_eq_cons n.natAbs
    have hvalue' : (n.natAbs : Int) = n := by omega
    split
    · next r h =>
      rw [hds] at h
      rw [(List.cons.inj h).1] at hdigit
      exact absurd hdigit (by decide)
    · next r h =>
      rw [hds] at h
      rw [(List.cons.inj h).1] at hdigit
      exact absurd hdigit (by decide)
    · rw [hvalue]
      exact congrArg some hvalue'

theorem scalarMeaning?_textStyle (s : String) :
    scalarMeaning? none (textStyle s) s = some .text := by
  have hfits := fits_form s
  have htag : caseOfTag? none = none := rfl
  unfold textStyle
  cases hform : form s with
  | plain =>
    rw [hform] at hfits
    simp [scalarMeaning?, htag, hfits.1]
  | single => rfl
  | double => rfl
  | literal => rfl

theorem shows_ofDocument : Readable.Shows ofDocument where
  members?_record ms := by
    rw [ofDocument, assemble]
    show (ms.map _).mapM keyed? = _
    induction ms with
    | nil => rfl
    | cons m ms ih =>
      rw [List.map_cons, List.mapM_cons, ih]
      rfl
  items?_list xs := by rw [ofDocument, assemble]; rfl
  text?_text s := by rw [ofDocument, assemble]; rfl
  ownText?_text s := by
    rw [ofDocument, assemble]
    exact if_pos (scalarMeaning?_textStyle s)
  word?_text s := by rw [ofDocument, assemble]; rfl
  storable_text s := by
    rw [ofDocument, assemble]
    show storable _ = true
    rw [storable, scalarMeaning?_textStyle]
    rfl
  flag?_flag b := by
    rw [ofDocument, assemble]
    cases b <;> rfl
  number?_number n := by
    rw [ofDocument, assemble]
    show number? _ = _
    have hplain : unquoted intTag none .plain = true := rfl
    rw [number?, if_pos hplain, whole?_toString]
    rfl

end Yaml

namespace Descriptor

theorem plainKey_of_mem {key : String}
    (h : key ∈ Info.keys ++ Route.keys ++ Middleware.keys ++ Draft.keys) : Yaml.PlainKey key := by
  have hkeys : ∀ key ∈ Info.keys ++ Route.keys ++ Middleware.keys ++ Draft.keys,
      (key.toList ≠ [] ∧ key.toList.length ≤ 1024) ∧ key.toList.all Yaml.isKeyChar = true := by
    decide
  obtain ⟨⟨hne, hlength⟩, hchars⟩ := hkeys key h
  exact ⟨hne, hlength, List.all_eq_true.mp hchars⟩

theorem regular_list {α : Type} {xs : List α} {document : α → Document} {room : Nat}
    (hlist : ∀ x, Yaml.isList (document x) = false) (h : ∀ x, Yaml.Regular room (document x)) :
    Yaml.Regular (room + 1) (.list (xs.map document)) :=
  .list (by simp [hlist]) (by simp [h])

theorem regular_route (r : Route) (room : Nat) : Yaml.Regular (room + 2) r.document := by
  have hmethods : Yaml.Regular (room + 1) (.list (r.methods.map fun m => .text m.name)) :=
    regular_list (fun _ => rfl) fun m => .text room m.name
  refine .record (by simp) ?_ ?_
  · simp (disch := decide) [Info.members, plainKey_of_mem]
  · simp [Info.members, hmethods, Yaml.Regular.text, Yaml.Regular.flag]

theorem regular_middleware (m : Middleware) (room : Nat) :
    Yaml.Regular (room + 2) m.document := by
  have hpaths : Yaml.Regular (room + 1) (.list (m.paths.map .text)) :=
    regular_list (fun _ => rfl) fun path => .text room path
  refine .record (by simp) ?_ ?_
  · simp (disch := decide) [Info.members, plainKey_of_mem]
  · simp [Info.members, hpaths, Yaml.Regular.text, Yaml.Regular.number]

/-- No list or record of a descriptor has more than three others around it, and no list is an entry
of a list. -/
theorem regular_document (d : Descriptor) (room : Nat) : Yaml.Regular (room + 4) d.document := by
  have hroutes : Yaml.Regular (room + 3) (.list (d.routes.map Route.document)) :=
    regular_list (fun _ => rfl) fun r => regular_route r room
  have hmiddlewares : Yaml.Regular (room + 3) (.list (d.middlewares.map Middleware.document)) :=
    regular_list (fun _ => rfl) fun m => regular_middleware m room
  refine .record (by simp) ?_ ?_
  · simp (disch := decide) [Info.members, plainKey_of_mem]
  · simp [Info.members, Yaml.Regular.text, hroutes, hmiddlewares]

/-- Whatever its texts and priorities, a descriptor is read back from the YAML that is written of
it. -/
theorem ofYaml_toYaml (d : Descriptor) (h : d.Reachable) : ofYaml d.toYaml = .ok d := by
  apply h.wellFormed.parse_eq_ok
  rw [Draft.parse?, toYaml, document, Yaml.parse?_toYaml (d.regular_document 124)]
  exact d.read_shown Yaml.shows_ofDocument

theorem ofYaml_toYaml_hostile : hostile.Reachable ∧ ofYaml hostile.toYaml = .ok hostile :=
  ⟨reachable_hostile, ofYaml_toYaml hostile reachable_hostile⟩

end Descriptor

end Scaffold
