import Mathlib.Logic.Relation
import Scaffold.Proofs.JsonTexts

/-!
JSON documents that say the same. The members of the records that make up a descriptor may change
their order, those with the value that a missing one stands for may go, and texts of unknown names
may come. No such edit changes what is read of the document, so the texts of the trees on both ends
of a chain of edits give the same descriptor or fail for the same reason.
-/

namespace Scaffold

open Readable

variable {α : Type}

namespace Json

/-- The names that a reader of a record knows, and the members it takes for granted. -/
structure Fields where
  keys : List String
  defaults : List (String × Json)

/-- One change to the members of a record. -/
inductive Edit (f : Fields) : List (String × Json) → List (String × Json) → Prop
  | permute {ms ms'} : ms.Perm ms' → Edit f ms ms'
  | drop {pre suffix m} : m ∈ f.defaults → Edit f (pre ++ m :: suffix) (pre ++ suffix)
  | add {pre suffix key s} : key ∉ f.keys →
      Edit f (pre ++ suffix) (pre ++ (key, .text s) :: suffix)

end Json

def Info.defaults : List (String × Json) := Info.keys.map fun key => (key, .text "")

def Route.fields : Json.Fields where
  keys := Info.keys ++ Route.keys
  defaults := Info.defaults ++ [("StrictSlash", .flag false), ("HttpMethods", .list [])]

def Middleware.fields : Json.Fields where
  keys := Info.keys ++ Middleware.keys
  defaults := Info.defaults ++ [("Paths", .list []), ("Priority", .whole 0)]

def Draft.fields : Json.Fields where
  keys := Info.keys ++ Draft.keys
  defaults := Info.defaults ++ [("Routes", .list []), ("Middlewares", .list [])]

/-- The lists of a descriptor, and what is known of their records. -/
def Draft.lists : List (String × Json.Fields) :=
  [("Routes", Route.fields), ("Middlewares", Middleware.fields)]

namespace Json

/-- One edit of a document: of its own members, or of the members of a route or middleware. -/
inductive Restates : Json → Json → Prop
  | top {ms ms'} : Edit Draft.fields ms ms' → Restates (.record ms) (.record ms')
  | entry {key f ms ms' pre suffix front back} : (key, f) ∈ Draft.lists → Edit f ms ms' →
      Restates (.record (pre ++ (key, .list (front ++ .record ms :: back)) :: suffix))
        (.record (pre ++ (key, .list (front ++ .record ms' :: back)) :: suffix))

/-- The records that make up a descriptor have no key twice. -/
structure DistinctKeys (t : Json) : Prop where
  top : ∀ ms, t = .record ms → (ms.map Prod.fst).Nodup
  entry : ∀ ms, t = .record ms → ∀ key ∈ Draft.keys, ∀ xs, (key, .list xs) ∈ ms →
    ∀ rs, .record rs ∈ xs → (rs.map Prod.fst).Nodup

end Json

namespace Readable

variable {ν : Type}

/-- The values of the members of one name. -/
def valuesOf (ms : List (String × ν)) (key : String) : List ν :=
  (ms.filter fun m => m.1 == key).map Prod.snd

@[simp] theorem valuesOf_append (ms ms' : List (String × ν)) (key : String) :
    valuesOf (ms ++ ms') key = valuesOf ms key ++ valuesOf ms' key := by
  simp [valuesOf]

theorem valuesOf_cons_self (ms : List (String × ν)) (key : String) (v : ν) :
    valuesOf ((key, v) :: ms) key = v :: valuesOf ms key := by
  simp [valuesOf]

theorem valuesOf_cons_of_ne {ms : List (String × ν)} {m : String × ν} {key : String}
    (h : m.1 ≠ key) : valuesOf (m :: ms) key = valuesOf ms key := by
  simp [valuesOf, h]

/-- What a reader takes for the values of one name: a default for none, a view of a single one. -/
def only (values : List ν) (default : Option α) (view : ν → Option α) : Option α :=
  match values with
  | [] => default
  | [v] => view v
  | _ => none

theorem required_eq_only (ms : List (String × ν)) (key : String) (view : ν → Option α) :
    required ms key view = only (valuesOf ms key) none view := by
  rw [required, member?, valuesOf]
  cases ms.filter fun m => m.1 == key with
  | nil => rfl
  | cons m rest => cases rest <;> rfl

theorem optional_eq_only (ms : List (String × ν)) (key : String) (default : α)
    (view : ν → Option α) :
    optional ms key default view = only (valuesOf ms key) (some default) view := by
  rw [Readable.optional, member?, valuesOf]
  cases ms.filter fun m => m.1 == key with
  | nil => rfl
  | cons m rest => cases rest <;> rfl

theorem only_eq_of_perm {values values' : List ν} (h : values.Perm values') (default : Option α)
    (view : ν → Option α) : only values default view = only values' default view := by
  have hlength := h.length_eq
  match values, values' with
  | [], [] => rfl
  | [v], [v'] =>
    obtain rfl : v = v' := by simpa using h
    rfl
  | _ :: _ :: _, _ :: _ :: _ => rfl
  | [], _ :: _ => simp at hlength
  | _ :: _, [] => simp at hlength
  | [_], _ :: _ :: _ => simp at hlength
  | _ :: _ :: _, [_] => simp at hlength

/-- One value may be exchanged for another that looks the same. -/
theorem only_exchange {pre suffix : List (String × ν)} {key key' : String} {v v' : ν}
    {view : ν → Option α} (h : key = key' → view v = view v') (default : Option α) :
    only (valuesOf (pre ++ (key, v) :: suffix) key') default view =
      only (valuesOf (pre ++ (key, v') :: suffix) key') default view := by
  by_cases hkey : key = key'
  · subst hkey
    simp only [valuesOf_append, valuesOf_cons_self]
    cases valuesOf pre key with
    | nil =>
      cases valuesOf suffix key with
      | nil => exact h rfl
      | cons => rfl
    | cons v rest => cases rest <;> rfl
  · simp only [valuesOf_append, valuesOf_cons_of_ne (m := (key, v)) hkey,
      valuesOf_cons_of_ne (m := (key, v')) hkey]

/-- Each of the names occurs once at most. -/
def OnceEach (keys : List String) (ms : List (String × ν)) : Prop :=
  ∀ key ∈ keys, (valuesOf ms key).length ≤ 1

theorem onceEach_of_nodup {ms : List (String × ν)} (h : (ms.map Prod.fst).Nodup)
    (keys : List String) : OnceEach keys ms := by
  intro key _
  have hcount := List.nodup_iff_count_le_one.mp h key
  rwa [List.count_eq_countP, List.countP_map, List.countP_eq_length_filter,
    ← List.length_map Prod.snd] at hcount

end Readable

namespace Json

variable {f : Fields} {ms ms' : List (String × Json)} {key : String}

/-- Of the values of a known name, an edit can only take away one that is the default. -/
theorem Edit.perm_valuesOf (h : Edit f ms ms') (hkey : key ∈ f.keys) :
    (valuesOf ms key).Perm (valuesOf ms' key) ∨
      ∃ v, (key, v) ∈ f.defaults ∧ (valuesOf ms key).Perm (v :: valuesOf ms' key) := by
  cases h with
  | permute h => exact .inl ((h.filter _).map _)
  | @drop pre suffix m hm =>
    obtain ⟨name, v⟩ := m
    by_cases hname : name = key
    · subst hname
      refine .inr ⟨v, hm, ?_⟩
      simp only [valuesOf_append, valuesOf_cons_self]
      exact List.perm_middle
    · simp [valuesOf_cons_of_ne (m := (name, v)) hname]
  | @add pre suffix name s hname =>
    have hne : name ≠ key := fun h => hname (h ▸ hkey)
    simp [valuesOf_cons_of_ne (m := (name, Json.text s)) hne]

theorem Edit.onceEach (h : Edit f ms ms') (honce : OnceEach f.keys ms) : OnceEach f.keys ms' := by
  intro key hkey
  have hle := honce key hkey
  rcases h.perm_valuesOf hkey with hperm | ⟨v, -, hperm⟩
  · rwa [hperm.length_eq] at hle
  · rw [hperm.length_eq, List.length_cons] at hle
    omega

/-- What is taken for a known name stays, if its default value looks like a missing one. -/
theorem Edit.only_eq (h : Edit f ms ms') (honce : OnceEach f.keys ms) (hkey : key ∈ f.keys)
    {default : Option α} {view : Json → Option α}
    (hdefault : ∀ v, (key, v) ∈ f.defaults → view v = default) :
    only (valuesOf ms key) default view =
      only (valuesOf ms' key) default view := by
  rcases h.perm_valuesOf hkey with hperm | ⟨v, hv, hperm⟩
  · exact only_eq_of_perm hperm default view
  · have hle := honce key hkey
    rw [hperm.length_eq, List.length_cons] at hle
    have hnone : valuesOf ms' key = [] := List.eq_nil_of_length_eq_zero (by omega)
    rw [hnone] at hperm ⊢
    rw [List.perm_singleton.mp hperm]
    exact hdefault v hv

/-- An edit takes nothing away and adds nothing that a reader with room for a list cannot hold. -/
theorem Edit.fits_eq (h : Edit f ms ms') (hdefaults : ∀ m ∈ f.defaults, ∀ room, fits (room + 1) m.2)
    (room : Nat) :
    (ms.all fun m => fits (room + 1) m.2) = ms'.all fun m => fits (room + 1) m.2 := by
  cases h with
  | permute h => exact h.all_eq
  | drop hm => simp [hdefaults _ hm room]
  | add hkey => simp [fits]

end Json

section

variable {ms ms' : List (String × Json)}

theorem othersStorable_json (ms : List (String × Json)) (known : List String) :
    othersStorable ms known = true := by
  simp [othersStorable, storable]

theorem Info.read_edit {f : Json.Fields} (h : Json.Edit f ms ms') (honce : OnceEach f.keys ms)
    (hkeys : ∀ key ∈ Info.keys, key ∈ f.keys)
    (hdefaults : ∀ key ∈ Info.keys, ∀ v, (key, v) ∈ f.defaults → v = .text "") :
    Info.read ms = Info.read ms' := by
  have htext : ∀ key ∈ Info.keys, Readable.optional ms key "" ownText? =
      Readable.optional ms' key "" ownText? := by
    intro key hkey
    rw [optional_eq_only, optional_eq_only]
    refine h.only_eq honce (hkeys key hkey) fun v hv => ?_
    rw [hdefaults key hkey v hv]
    rfl
  simp only [Info.keys, List.forall_mem_cons] at htext
  simp only [Info.read, htext]

/-- The views of the members that a route is made of. -/
theorem Route.read_record (ms : List (String × Json)) :
    Route.read (Json.record ms) = (do
      some
        { info := ← Info.read ms
          path := ← only (valuesOf ms "Path") none text?
          strictSlash := ← only (valuesOf ms "StrictSlash") (some false) flag?
          methods := ← only (valuesOf ms "HttpMethods") (some []) (each Method.read)
          handler := ← only (valuesOf ms "HandlerName") none text? }) := by
  simp only [Route.read, othersStorable_json, required_eq_only, optional_eq_only]
  rfl

theorem Route.read_edit (h : Json.Edit Route.fields ms ms')
    (honce : OnceEach Route.fields.keys ms) :
    Route.read (Json.record ms) = Route.read (Json.record ms') := by
  have hinfo : Info.read ms = Info.read ms' :=
    Info.read_edit h honce (by simp +contextual [Route.fields])
      (by simp [Route.fields, Info.defaults, Info.keys])
  have hpath : only (valuesOf ms "Path") none text? = only (valuesOf ms' "Path") none text? :=
    h.only_eq honce (by simp [Route.fields, Route.keys])
      (by simp [Route.fields, Info.defaults, Info.keys])
  have hstrict : only (valuesOf ms "StrictSlash") (some false) flag? =
      only (valuesOf ms' "StrictSlash") (some false) flag? :=
    h.only_eq honce (by simp [Route.fields, Route.keys])
      (by simp [Route.fields, Info.defaults, Info.keys]; rfl)
  have hmethods : only (valuesOf ms "HttpMethods") (some []) (each Method.read) =
      only (valuesOf ms' "HttpMethods") (some []) (each Method.read) :=
    h.only_eq honce (by simp [Route.fields, Route.keys])
      (by simp [Route.fields, Info.defaults, Info.keys]; rfl)
  have hhandler : only (valuesOf ms "HandlerName") none text? =
      only (valuesOf ms' "HandlerName") none text? :=
    h.only_eq honce (by simp [Route.fields, Route.keys])
      (by simp [Route.fields, Info.defaults, Info.keys])
  rw [read_record, read_record, hinfo, hpath, hstrict, hmethods, hhandler]

theorem Middleware.read_record (ms : List (String × Json)) :
    Middleware.read (Json.record ms) = (do
      some
        { info := ← Info.read ms
          paths := ← only (valuesOf ms "Paths") (some []) (each text?)
          handler := ← only (valuesOf ms "HandlerName") none text?
          priority := ← only (valuesOf ms "Priority") (some 0) number? }) := by
  simp only [Middleware.read, othersStorable_json, required_eq_only, optional_eq_only]
  rfl

theorem Middleware.read_edit (h : Json.Edit Middleware.fields ms ms')
    (honce : OnceEach Middleware.fields.keys ms) :
    Middleware.read (Json.record ms) = Middleware.read (Json.record ms') := by
  have hinfo : Info.read ms = Info.read ms' :=
    Info.read_edit h honce (by simp +contextual [Middleware.fields])
      (by simp [Middleware.fields, Info.defaults, Info.keys])
  have hpaths : only (valuesOf ms "Paths") (some []) (each text?) =
      only (valuesOf ms' "Paths") (some []) (each text?) :=
    h.only_eq honce (by simp [Middleware.fields, Middleware.keys])
      (by simp [Middleware.fields, Info.defaults, Info.keys]; rfl)
  have hhandler : only (valuesOf ms "HandlerName") none text? =
      only (valuesOf ms' "HandlerName") none text? :=
    h.only_eq honce (by simp [Middleware.fields, Middleware.keys])
      (by simp [Middleware.fields, Info.defaults, Info.keys])
  have hpriority : only (valuesOf ms "Priority") (some 0) number? =
      only (valuesOf ms' "Priority") (some 0) number? :=
    h.only_eq honce (by simp [Middleware.fields, Middleware.keys])
      (by simp [Middleware.fields, Info.defaults, Info.keys]; rfl)
  rw [read_record, read_record, hinfo, hpaths, hhandler, hpriority]

theorem Draft.read_record (ms : List (String × Json)) :
    Draft.read (Json.record ms) = (do
      some
        { info := ← Info.read ms
          routes := ← only (valuesOf ms "Routes") (some []) (each Route.read)
          middlewares :=
            ← only (valuesOf ms "Middlewares") (some []) (each Middleware.read) }) := by
  simp only [Draft.read, othersStorable_json, optional_eq_only]
  rfl

theorem Draft.read_edit (h : Json.Edit Draft.fields ms ms')
    (honce : OnceEach Draft.fields.keys ms) :
    Draft.read (Json.record ms) = Draft.read (Json.record ms') := by
  have hinfo : Info.read ms = Info.read ms' :=
    Info.read_edit h honce (by simp +contextual [Draft.fields])
      (by simp [Draft.fields, Info.defaults, Info.keys])
  have hroutes : only (valuesOf ms "Routes") (some []) (each Route.read) =
      only (valuesOf ms' "Routes") (some []) (each Route.read) :=
    h.only_eq honce (by simp [Draft.fields, Draft.keys])
      (by simp [Draft.fields, Info.defaults, Info.keys]; rfl)
  have hmiddlewares : only (valuesOf ms "Middlewares") (some []) (each Middleware.read) =
      only (valuesOf ms' "Middlewares") (some []) (each Middleware.read) :=
    h.only_eq honce (by simp [Draft.fields, Draft.keys])
      (by simp [Draft.fields, Info.defaults, Info.keys]; rfl)
  rw [read_record, read_record, hinfo, hroutes, hmiddlewares]

/-- A list is read as before if one of its entries is. -/
theorem Json.each_exchange {front back : List Json} {x x' : Json} {view : Json → Option α}
    (h : view x = view x') :
    each view (Json.list (front ++ x :: back)) = each view (Json.list (front ++ x' :: back)) := by
  have hlist : ∀ xs, each view (Json.list xs) = xs.mapM view := fun _ => rfl
  simp [hlist, List.mapM_append, h]

/-- The views of a document stay if the views of one of its members do. -/
theorem Draft.read_exchange {pre suffix : List (String × Json)} {key : String} {v v' : Json}
    (hinfo : key ∉ Info.keys)
    (hroutes : key = "Routes" → each Route.read v = each Route.read v')
    (hmiddlewares : key = "Middlewares" → each Middleware.read v = each Middleware.read v') :
    Draft.read (Json.record (pre ++ (key, v) :: suffix)) =
      Draft.read (Json.record (pre ++ (key, v') :: suffix)) := by
  have htexts : Info.read (pre ++ (key, v) :: suffix) = Info.read (pre ++ (key, v') :: suffix) := by
    simp only [Info.keys, List.mem_cons, not_or] at hinfo
    have htext : ∀ name, key ≠ name →
        only (valuesOf (pre ++ (key, v) :: suffix) name) (some "") ownText? =
          only (valuesOf (pre ++ (key, v') :: suffix) name) (some "") ownText? :=
      fun name hne => only_exchange (fun h => absurd h hne) (some "")
    simp only [Info.read, optional_eq_only, htext _ hinfo.1, htext _ hinfo.2.1, htext _ hinfo.2.2.1]
  rw [read_record, read_record, htexts, only_exchange hroutes, only_exchange hmiddlewares]

/-- An entry that is edited is read as before, in a list of its kind. -/
theorem Draft.read_entry {key : String} {f : Json.Fields} (hf : (key, f) ∈ Draft.lists)
    (h : Json.Edit f ms ms') (honce : OnceEach f.keys ms) (pre suffix : List (String × Json))
    (front back : List Json) :
    Draft.read (Json.record (pre ++ (key, .list (front ++ .record ms :: back)) :: suffix)) =
      Draft.read (Json.record (pre ++ (key, .list (front ++ .record ms' :: back)) :: suffix)) := by
  simp only [Draft.lists, List.mem_cons, Prod.mk.injEq, List.not_mem_nil, or_false] at hf
  rcases hf with ⟨rfl, rfl⟩ | ⟨rfl, rfl⟩
  · exact read_exchange (by decide) (fun _ => Json.each_exchange (Route.read_edit h honce))
      (fun h => absurd h (by decide))
  · exact read_exchange (by decide) (fun h => absurd h (by decide))
      (fun _ => Json.each_exchange (Middleware.read_edit h honce))

end

namespace Json

/-- In the records that make up a descriptor, no name that is known there occurs twice. -/
structure KnownOnce (t : Json) : Prop where
  top : ∀ ms, t = .record ms → OnceEach Draft.fields.keys ms
  entry : ∀ ms, t = .record ms → ∀ key f, (key, f) ∈ Draft.lists → ∀ xs, (key, .list xs) ∈ ms →
    ∀ rs, .record rs ∈ xs → OnceEach f.keys rs

theorem mem_keys_of_mem_lists {key : String} {f : Fields} (h : (key, f) ∈ Draft.lists) :
    key ∈ Draft.keys := by
  simp only [Draft.lists, List.mem_cons, Prod.mk.injEq, List.not_mem_nil, or_false] at h
  rcases h with ⟨rfl, -⟩ | ⟨rfl, -⟩ <;> decide

theorem DistinctKeys.knownOnce {t : Json} (h : DistinctKeys t) : KnownOnce t where
  top ms ht := onceEach_of_nodup (h.top ms ht) _
  entry ms ht key _ hf xs hxs rs hrs :=
    onceEach_of_nodup (h.entry ms ht key (mem_keys_of_mem_lists hf) xs hxs rs hrs) _

/-- The lists of a record that was edited are lists of it from before. -/
theorem Edit.mem_of_mem_list {f : Fields} {ms ms' : List (String × Json)} (h : Edit f ms ms')
    {key : String} {xs : List Json} (hm : (key, .list xs) ∈ ms') : (key, .list xs) ∈ ms := by
  cases h with
  | permute h => exact h.mem_iff.mpr hm
  | drop => simp at hm ⊢; tauto
  | add => simpa using hm

/-- A name has one kind of entry. -/
theorem eq_of_mem_lists {key : String} {f g : Fields} (hf : (key, f) ∈ Draft.lists)
    (hg : (key, g) ∈ Draft.lists) : f = g := by
  simp only [Draft.lists, List.mem_cons, Prod.mk.injEq, List.not_mem_nil, or_false] at hf hg
  rcases hf with ⟨rfl, rfl⟩ | ⟨rfl, rfl⟩ <;> simp_all

theorem Restates.knownOnce {t t' : Json} (h : Restates t t') (ht : KnownOnce t) : KnownOnce t' := by
  cases h with
  | @top ms ms' hedit =>
    refine ⟨?_, ?_⟩
    · rintro _ ⟨⟩
      exact hedit.onceEach (ht.top ms rfl)
    · rintro _ ⟨⟩ key f hf xs hxs
      exact ht.entry ms rfl key f hf xs (hedit.mem_of_mem_list hxs)
  | @entry key f ms ms' pre suffix front back hf hedit =>
    have hms : OnceEach f.keys ms :=
      ht.entry _ rfl key f hf (front ++ .record ms :: back) (by simp) ms (by simp)
    refine ⟨?_, ?_⟩
    · rintro _ ⟨⟩ name hname
      have hle := ht.top _ rfl name hname
      by_cases hkey : key = name
      · subst hkey
        simpa [valuesOf_cons_self] using hle
      · rw [valuesOf_append, valuesOf_cons_of_ne hkey] at hle ⊢
        exact hle
    · rintro _ ⟨⟩ name g hg xs hxs rs hrs
      have hold : (name, .list xs) ∈ pre ++ suffix → OnceEach g.keys rs := fun hm =>
        ht.entry _ rfl name g hg xs (by simp at hm ⊢; tauto) rs hrs
      rcases List.mem_append.mp hxs with hpre | hxs
      · exact hold (List.mem_append_left _ hpre)
      rcases List.mem_cons.mp hxs with heq | hsuffix
      · obtain ⟨rfl, rfl⟩ : name = key ∧ xs = front ++ .record ms' :: back := by simpa using heq
        obtain rfl := eq_of_mem_lists hf hg
        by_cases hrs' : rs = ms'
        · rw [hrs']
          exact hedit.onceEach hms
        · exact ht.entry _ rfl name f hf (front ++ .record ms :: back) (by simp) rs
            (by simp [hrs'] at hrs ⊢; tauto)
      · exact hold (List.mem_append_right _ hsuffix)

theorem fits_defaults {f : Fields} (hf : f = Draft.fields ∨ ∃ key, (key, f) ∈ Draft.lists) :
    ∀ m ∈ f.defaults, ∀ room, fits (room + 1) m.2 = true := by
  simp only [Draft.lists, List.mem_cons, Prod.mk.injEq, List.not_mem_nil, or_false] at hf
  rcases hf with rfl | ⟨key, ⟨-, rfl⟩ | ⟨-, rfl⟩⟩ <;>
    simp [Draft.fields, Route.fields, Middleware.fields, Info.defaults, Info.keys, fits]

/-- An edit does not change whether a document can be held: what it moves opens one list at most. -/
theorem Restates.fits_eq {t t' : Json} (h : Restates t t') (room : Nat) :
    fits (room + 4) t = fits (room + 4) t' := by
  cases h with
  | top hedit =>
    simp only [fits]
    exact hedit.fits_eq (fits_defaults (.inl rfl)) (room + 2)
  | @entry key f ms ms' pre suffix front back hf hedit =>
    have hrecord : fits (room + 2) (.record ms) = fits (room + 2) (.record ms') := by
      simp only [fits]
      exact hedit.fits_eq (fits_defaults (.inr ⟨key, hf⟩)) room
    have hlist : fits (room + 3) (.list (front ++ .record ms :: back)) =
        fits (room + 3) (.list (front ++ .record ms' :: back)) := by
      rw [fits, fits]
      simp only [List.all_append, List.all_cons, hrecord]
    rw [fits, fits]
    simp only [List.all_append, List.all_cons, hlist]

theorem Restates.read_eq {t t' : Json} (h : Restates t t') (ht : KnownOnce t) :
    Draft.read t = Draft.read t' := by
  cases h with
  | top hedit => exact Draft.read_edit hedit (ht.top _ rfl)
  | @entry key f ms ms' pre suffix front back hf hedit =>
    have hms : OnceEach f.keys ms :=
      ht.entry _ rfl key f hf (front ++ .record ms :: back) (by simp) ms (by simp)
    exact Draft.read_entry hf hedit hms pre suffix front back

/-- A chain of edits keeps what one edit keeps. -/
theorem restates_chain {t t' : Json} (h : Relation.ReflTransGen Restates t t') (ht : KnownOnce t) :
    KnownOnce t' ∧ fits nestingLimit t = fits nestingLimit t' ∧ Draft.read t = Draft.read t' := by
  induction h with
  | refl => exact ⟨ht, rfl, rfl⟩
  | tail _ hstep ih =>
    obtain ⟨hknown, hfits, hread⟩ := ih
    exact ⟨hstep.knownOnce hknown, hfits.trans (hstep.fits_eq 123),
      hread.trans (hstep.read_eq hknown)⟩

end Json

namespace Descriptor

theorem ofJson_eq_of_restated {s s' : String} {t t' : Json} (hs : t.IsTextOf s)
    (hs' : t'.IsTextOf s') (ht : t.KnownOnce) (h : Relation.ReflTransGen Json.Restates t t') :
    ofJson s = ofJson s' := by
  obtain ⟨-, hfits, hread⟩ := Json.restates_chain h ht
  have hdraft : Draft.parse? .json s = Draft.parse? .json s' := by
    simp only [Draft.parse?, hs.parse?_eq, hs'.parse?_eq, hfits]
    split
    · exact hread
    · rfl
  rw [ofJson, ofJson, parse, parse, hdraft]

/-- Texts of two trees that say the same give the same descriptor, are both no descriptor of their
format, or are refused for the same entry and reason. -/
theorem ofJson_restated {s s' : String} {t t' : Json} (hs : t.IsTextOf s) (hs' : t'.IsTextOf s')
    (ht : t.DistinctKeys) (h : Relation.ReflTransGen Json.Restates t t') :
    (∃ d, ofJson s = .ok d ∧ ofJson s' = .ok d) ∨
      (ofJson s = .error (.malformed .json) ∧ ofJson s' = .error (.malformed .json)) ∨
      ∃ r, ofJson s = .error (.rejected r) ∧ ofJson s' = .error (.rejected r) := by
  rw [← ofJson_eq_of_restated hs hs' ht.knownOnce h]
  simp only [and_self, ofJson, parse]
  cases Draft.parse? .json s with
  | none => simp
  | some draft => cases hbuild : draft.build <;> simp [hbuild]

/-- A service with one route. -/
def homeDocument : Document :=
  .record [("Routes", .list [.record
    [("Path", .text "/"), ("StrictSlash", .flag false), ("HandlerName", .text "home")]])]

/-- The same service, with a note in the place of a default and the handler before the path. -/
def homeRestated : Document :=
  .record [("Routes", .list [.record
    [("Note", .text "new"), ("HandlerName", .text "home"), ("Path", .text "/")]])]

theorem restates_home : Relation.ReflTransGen Json.Restates
    (Json.ofDocument homeDocument) (Json.ofDocument homeRestated) := by
  have hstep : ∀ {ms ms' : List (String × Json)}, Json.Edit Route.fields ms ms' →
      Json.Restates (.record [("Routes", .list [.record ms])])
        (.record [("Routes", .list [.record ms'])]) := fun h =>
    @Json.Restates.entry "Routes" Route.fields _ _ [] [] [] [] List.mem_cons_self h
  have hdrop : Json.Edit Route.fields
      [("Path", .text "/"), ("StrictSlash", .flag false), ("HandlerName", .text "home")]
      [("Path", .text "/"), ("HandlerName", .text "home")] :=
    @Json.Edit.drop Route.fields [("Path", .text "/")] [("HandlerName", .text "home")]
      ("StrictSlash", .flag false) (by simp [Route.fields])
  have hadd : Json.Edit Route.fields [("Path", .text "/"), ("HandlerName", .text "home")]
      [("Note", .text "new"), ("Path", .text "/"), ("HandlerName", .text "home")] :=
    @Json.Edit.add Route.fields [] _ "Note" "new" (by decide)
  have hpermute : Json.Edit Route.fields
      [("Note", .text "new"), ("Path", .text "/"), ("HandlerName", .text "home")]
      [("Note", .text "new"), ("HandlerName", .text "home"), ("Path", .text "/")] :=
    .permute ((List.Perm.swap _ _ []).cons _)
  have hchain := ((Relation.ReflTransGen.single (hstep hdrop)).tail (hstep hadd)).tail
    (hstep hpermute)
  simpa only [homeDocument, homeRestated, Json.ofDocument, List.map_cons, List.map_nil] using hchain

theorem ofJson_restated_home :
    let s := homeDocument.toJson
    let s' := homeRestated.toJson
    (∃ d, ofJson s = .ok d ∧ ofJson s' = .ok d) ∨
      (ofJson s = .error (.malformed .json) ∧ ofJson s' = .error (.malformed .json)) ∨
      ∃ r, ofJson s = .error (.rejected r) ∧ ofJson s' = .error (.rejected r) :=
  ofJson_restated (Json.isTextOf_toJson (by simp [homeDocument, Json.Fits, Json.nestingLimit]))
    (Json.isTextOf_toJson (by simp [homeRestated, Json.Fits, Json.nestingLimit]))
    ⟨by simp [homeDocument, Json.ofDocument],
      by simp [homeDocument, Json.ofDocument, Draft.keys]⟩
    restates_home

end Descriptor

end Scaffold
