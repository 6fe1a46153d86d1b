import Mathlib.Data.Option.Basic
import Scaffold.Proofs.Rules

/-!
A descriptor is read back from its document. The document of a descriptor decodes to its parts in
every format that shows a document as it is, and the parts of a descriptor that obeys the rules are
joined without a refusal.
-/

namespace Scaffold

theorem Document.sizeOf_lt_record {ms : List (String × Document)} {m : String × Document}
    (h : m ∈ ms) : sizeOf m.2 < sizeOf (Document.record ms) := by
  have hsize := List.sizeOf_lt_of_mem h
  obtain ⟨key, x⟩ := m
  simp only [Prod.mk.sizeOf_spec, Document.record.sizeOf_spec] at hsize ⊢
  omega

namespace Readable

/-- The format shows a document as it is: each part of it has the view that goes with its shape, and
its texts are text even to a reader without expectation. -/
structure Shows {ν : Type} [Readable ν] (shown : Document → ν) : Prop where
  members?_record : ∀ ms, members? (shown (.record ms)) = some (ms.map fun m => (m.1, shown m.2))
  items?_list : ∀ xs, items? (shown (.list xs)) = some (xs.map shown)
  text?_text : ∀ s, text? (shown (.text s)) = some s
  ownText?_text : ∀ s, ownText? (shown (.text s)) = some s
  word?_text : ∀ s, word? (shown (.text s)) = some s
  storable_text : ∀ s, storable (shown (.text s)) = true
  flag?_flag : ∀ b, flag? (shown (.flag b)) = some b
  number?_number : ∀ n, number? (shown (.number n)) = Number.signed? n

/-- A list is read entry by entry. -/
theorem Shows.each_list {ν α : Type} [Readable ν] {shown : Document → ν} (hs : Shows shown)
    {write : α → Document} {view : ν → Option α} (hview : ∀ x, view (shown (write x)) = some x)
    (xs : List α) : each view (shown (.list (xs.map write))) = some xs := by
  simp only [each, hs.items?_list, List.map_map, Option.bind_eq_bind, Option.bind_some]
  induction xs with
  | nil => rfl
  | cons x xs ih => simp [hview, ih]

end Readable

/-- Every number of the range of priorities is read as itself. -/
theorem Number.signed?_toInt (n : Int64) : Number.signed? n.toInt = some n := by
  rw [signed?, if_pos ⟨Int64.minValue_le_toInt n, Int64.toInt_le n⟩, Int64.ofInt_toInt]

section

open Readable

variable {ν : Type} [Readable ν] {shown : Document → ν}

/-- The texts of an info are found among the members of the record that carries it. -/
theorem Info.read_shown (hs : Shows shown) (i : Info) {others : List (String × ν)}
    (hothers : ∀ m ∈ others, m.1 ∉ Info.keys) :
    Info.read (("Name", shown (.text i.name)) :: ("Summary", shown (.text i.summary)) ::
      ("Description", shown (.text i.description)) :: others) = some i := by
  have hskip : ∀ key ∈ Info.keys, others.filter (fun m => m.1 == key) = [] := by
    intro key hkey
    rw [List.filter_eq_nil_iff]
    intro m hm
    have hne : m.1 ≠ key := fun h => hothers m hm (h ▸ hkey)
    simpa using hne
  simp only [Info.keys, List.forall_mem_cons] at hskip
  simp [Info.read, Readable.optional, member?, hskip, hs.ownText?_text]

theorem Method.read_shown (hs : Shows shown) (m : Method) :
    Method.read (shown (.text m.name)) = some m := by
  simp [Method.read, hs.word?_text, Method.ofName?_name]

theorem Route.read_shown (hs : Shows shown) (r : Route) :
    Route.read (shown r.document) = some r := by
  have hmethods : each Method.read (shown (.list (r.methods.map fun m => .text m.name))) =
      some r.methods := hs.each_list (Method.read_shown hs) r.methods
  rw [Route.read, Route.document, hs.members?_record]
  simp [Info.members, Info.read_shown hs, Info.keys, othersStorable, keys, required,
    Readable.optional, member?, hs.storable_text, hs.text?_text, hs.flag?_flag, hmethods]

theorem Middleware.read_shown (hs : Shows shown) (m : Middleware) :
    Middleware.read (shown m.document) = some m := by
  have hpaths : each text? (shown (.list (m.paths.map .text))) = some m.paths :=
    hs.each_list hs.text?_text m.paths
  have hpriority : number? (shown (.number m.priority.toInt)) = some m.priority := by
    rw [hs.number?_number, Number.signed?_toInt]
  rw [Middleware.read, Middleware.document, hs.members?_record]
  simp [Info.members, Info.read_shown hs, Info.keys, othersStorable, keys, required,
    Readable.optional, member?, hs.storable_text, hs.text?_text, hpaths, hpriority]

namespace Descriptor

/-- The parts of the descriptor, as a document of it has them. -/
def draft (d : Descriptor) : Draft :=
  { info := d.info, routes := d.routes, middlewares := d.middlewares }

theorem read_shown (hs : Shows shown) (d : Descriptor) :
    Draft.read (shown d.document) = some d.draft := by
  have hroutes : each Route.read (shown (.list (d.routes.map Route.document))) = some d.routes :=
    hs.each_list (Route.read_shown hs) d.routes
  have hmiddlewares : each Middleware.read (shown (.list (d.middlewares.map Middleware.document))) =
      some d.middlewares := hs.each_list (Middleware.read_shown hs) d.middlewares
  rw [Draft.read, document, hs.members?_record]
  simp [Info.members, Info.read_shown hs, Info.keys, othersStorable, Draft.keys,
    Readable.optional, member?, hs.storable_text, hroutes, hmiddlewares, draft]

end Descriptor

end

namespace Descriptor

/-- Entries that are each added to what the entries in front of them made are all added. -/
theorem foldlM_eq_ok {α : Type} {add : Descriptor → α → Except Rejection Descriptor}
    (store : List α → Descriptor) (front xs : List α)
    (hadd : ∀ done x rest, front ++ xs = done ++ x :: rest →
      add (store done) x = .ok (store (done ++ [x]))) :
    xs.foldlM add (store front) = .ok (store (front ++ xs)) := by
  induction xs generalizing front with
  | nil => rw [List.append_nil, List.foldlM_nil]; rfl
  | cons x xs ih =>
    have hrest := ih (front ++ [x]) (by simpa using hadd)
    rw [List.foldlM_cons, hadd front x xs rfl]
    exact hrest.trans (by simp)

/-- The parts of a descriptor that obeys the rules are joined to that descriptor. -/
theorem WellFormed.build_draft {d : Descriptor} (h : d.WellFormed) : d.draft.build = .ok d := by
  have hroutes : d.routes.foldlM Descriptor.addRoute (base d.info) =
      .ok { base d.info with routes := d.routes } := by
    apply foldlM_eq_ok (fun rs => { base d.info with routes := rs }) []
    intro done r rest hd
    rw [List.nil_append] at hd
    rw [addRoute_eq_ok_iff, Route.defect?_eq_none_iff]
    refine ⟨⟨h.routes_sound r (by simp [hd]), fun s hs => ?_⟩, rfl⟩
    have hbeside := (List.pairwise_append.mp (hd ▸ h.routes_compatible)).2.2
    exact (Route.conflict?_eq_none_iff r s).mpr (hbeside s hs r List.mem_cons_self)
  have hmiddlewares : d.middlewares.foldlM Descriptor.addMiddleware
      { base d.info with routes := d.routes } = .ok d := by
    apply foldlM_eq_ok (fun ms => { d with middlewares := ms }) []
    intro done m rest hd
    rw [List.nil_append] at hd
    rw [addMiddleware_eq_ok_iff, Middleware.defect?_eq_none_iff]
    refine ⟨⟨h.middleware_names m (by simp [hd]), fun n hn => ?_⟩, rfl⟩
    have hbeside := (List.pairwise_append.mp (hd ▸ h.middlewares_compatible)).2.2
    exact (Middleware.conflict?_eq_none_iff m n).mpr (hbeside n hn m List.mem_cons_self)
  simp only [Draft.build, draft, addAll, hroutes]
  exact hmiddlewares

/-- A text that decodes to the parts of a descriptor that obeys the rules is read as it. -/
theorem WellFormed.parse_eq_ok {d : Descriptor} (h : d.WellFormed) {f : Format} {s : String}
    (hdecoded : Draft.parse? f s = some d.draft) : parse f s = .ok d :=
  (parse_eq_ok_iff f s d).mpr ⟨d.draft, hdecoded, h.build_draft⟩

/-- A descriptor whose texts could be taken for values, marks and escapes of a format. -/
def hostile : Descriptor :=
  { info :=
      { name := "null", summary := "- a: \"b\" # c\t\\", description := "0x1F\n two \u2028\r\n" }
    routes :=
      [{ info := { name := "1e3", summary := " true", description := "\u0000\u0085\ufeff" }
         path := "/: \"{ship}\"\n"
         methods := [.get, .connect]
         handler := "list_ships" }]
    middlewares :=
      [{ info := { name := "~", summary := "''", description := "\n\n" }
         paths := ["*", "", "007"]
         handler := "LogCalls"
         priority := Int64.minValue }] }

theorem reachable_hostile : hostile.Reachable := by
  have hcalls : (base hostile.info).afterAll hostile.draft.calls = hostile := by decide +kernel
  exact hcalls ▸ (Reachable.base hostile.info).afterAll hostile.draft.calls

end Descriptor

end Scaffold
