import Mathlib.Data.List.Nodup
import Mathlib.Data.List.Perm.Basic
import Scaffold.Proofs.LocalNames

/-!
Imports as two sets. What is noted is put into its sorted list and stands there once, so the imports
of a file tell which symbols and names were noted, and neither in what order nor how often. Local
names are handed out by exported name, and by full path among the symbols of one name.
-/

namespace Scaffold.Source

/-- A strict order under which any two different values can be compared. -/
structure Sorts {α : Type} (before : α → α → Bool) : Prop where
  irrefl : ∀ a, before a a = false
  trans : ∀ a b c, before a b = true → before b c = true → before a c = true
  connected : ∀ a b, a ≠ b → before a b = true ∨ before b a = true

namespace Sorts

variable {α : Type} {before : α → α → Bool}

theorem asymm (h : Sorts before) {a b : α} (hab : before a b = true) : before b a = false := by
  by_contra hba
  have hself := h.trans a b a hab (by simpa using hba)
  rw [h.irrefl a] at hself
  cases hself

theorem pairwise_insertSorted [DecidableEq α] (h : Sorts before) (x : α) {ys : List α}
    (hys : ys.Pairwise fun a b => before a b = true) :
    (insertSorted before x ys).Pairwise fun a b => before a b = true := by
  induction ys with
  | nil => simp [insertSorted]
  | cons y ys ih =>
    obtain ⟨hy, hrest⟩ := List.pairwise_cons.mp hys
    unfold insertSorted
    split
    · exact hys
    · next hne =>
      split
      · next hbefore =>
        refine List.pairwise_cons.mpr ⟨fun z hz => ?_, ih hrest⟩
        rcases (mem_insertSorted before x z ys).mp hz with rfl | hz
        · exact hbefore
        · exact hy z hz
      · next hbefore =>
        have hxy : before x y = true := (h.connected x y hne).resolve_right hbefore
        refine List.pairwise_cons.mpr ⟨fun z hz => ?_, hys⟩
        rcases List.mem_cons.mp hz with rfl | hz
        · exact hxy
        · exact h.trans x y z hxy (hy z hz)

theorem nodup (h : Sorts before) {xs : List α} (hxs : xs.Pairwise fun a b => before a b = true) :
    xs.Nodup := by
  refine hxs.imp fun {a b} hab heq => ?_
  rw [heq, h.irrefl b] at hab
  cases hab

/-- A sorted list is told by its members. -/
theorem eq_of_mem_iff (h : Sorts before) {xs ys : List α}
    (hxs : xs.Pairwise fun a b => before a b = true)
    (hys : ys.Pairwise fun a b => before a b = true) (hmem : ∀ a, a ∈ xs ↔ a ∈ ys) : xs = ys := by
  have hperm : xs.Perm ys := (List.perm_ext_iff_of_nodup (h.nodup hxs) (h.nodup hys)).mpr hmem
  refine hperm.eq_of_pairwise (fun a b _ _ hab hba => ?_) hxs hys
  rw [h.asymm hab] at hba
  cases hba

end Sorts

theorem lt_or_lt_of_ne {a b : String} (h : a ≠ b) : a < b ∨ b < a := by
  by_contra hboth
  obtain ⟨hab, hba⟩ := not_or.mp hboth
  exact h (String.le_antisymm (String.not_lt.mp hba) (String.not_lt.mp hab))

theorem sorts_nameBefore : Sorts nameBefore where
  irrefl a := decide_eq_false (String.lt_irrefl a)
  trans a b c hab hbc := by
    simp only [nameBefore, decide_eq_true_eq] at hab hbc ⊢
    exact String.lt_trans hab hbc
  connected a b hne := by
    simp only [nameBefore, decide_eq_true_eq]
    exact lt_or_lt_of_ne hne

namespace Symbol

theorem before_iff (a b : Symbol) :
    a.before b = true ↔ a.path < b.path ∨ a.path = b.path ∧ a.name < b.name := by
  simp [before]

theorem sorts_before : Sorts before where
  irrefl a := by simp [before, String.lt_irrefl]
  trans a b c hab hbc := by
    rw [before_iff] at hab hbc ⊢
    rcases hab with hab | ⟨hab, habn⟩ <;> rcases hbc with hbc | ⟨hbc, hbcn⟩
    · exact .inl (String.lt_trans hab hbc)
    · exact .inl (hbc ▸ hab)
    · exact .inl (hab ▸ hbc)
    · exact .inr ⟨hab.trans hbc, String.lt_trans habn hbcn⟩
  connected a b hne := by
    simp only [before_iff]
    by_cases hpath : a.path = b.path
    · have hname : a.name ≠ b.name := fun hname => hne (by cases a; cases b; simp_all)
      exact (lt_or_lt_of_ne hname).imp (fun h => .inr ⟨hpath, h⟩) fun h => .inr ⟨hpath.symm, h⟩
    · exact (lt_or_lt_of_ne hpath).imp .inl .inl

/-- Among the symbols of one name the full path tells the symbol. -/
theorem eq_of_fullPath_eq {a b : Symbol} (hname : a.name = b.name) (h : a.fullPath = b.fullPath) :
    a = b := by
  cases a
  cases b
  obtain rfl : _ = _ := hname
  simpa [fullPath, String.append_left_inj] using h

end Symbol

/-- A note for the imports of a file: a symbol that it speaks of, or a name that it declares. -/
inductive Note where
  | symbol (s : Symbol)
  | name (name : String)
  deriving DecidableEq

namespace Imports

def note (r : Imports) : Note → Imports
  | .symbol s => r.register s
  | .name name => r.reserve name

/-- The imports after some notes, taken in this order. -/
def ofNotes (notes : List Note) : Imports := notes.foldl note {}

/-- Both lists are sorted, and hold what is noted. -/
structure Holds (r : Imports) (notes : List Note) : Prop where
  sorted_symbols : r.symbols.Pairwise fun s t => s.before t = true
  sorted_reserved : r.reserved.Pairwise fun m n => nameBefore m n = true
  mem_symbols : ∀ s, s ∈ r.symbols ↔ .symbol s ∈ notes
  mem_reserved : ∀ name, name ∈ r.reserved ↔ .name name ∈ notes

theorem Holds.note {r : Imports} {notes : List Note} (h : r.Holds notes) (n : Note) :
    (r.note n).Holds (notes ++ [n]) := by
  cases n with
  | symbol s =>
    refine ⟨Symbol.sorts_before.pairwise_insertSorted s h.sorted_symbols, h.sorted_reserved,
      fun t => ?_, fun name => ?_⟩
    · change t ∈ insertSorted Symbol.before s r.symbols ↔ _
      rw [mem_insertSorted, h.mem_symbols]
      simp [or_comm]
    · change name ∈ r.reserved ↔ _
      rw [h.mem_reserved]
      simp
  | name m =>
    refine ⟨h.sorted_symbols, sorts_nameBefore.pairwise_insertSorted m h.sorted_reserved,
      fun t => ?_, fun name => ?_⟩
    · change t ∈ r.symbols ↔ _
      rw [h.mem_symbols]
      simp
    · change name ∈ insertSorted nameBefore m r.reserved ↔ _
      rw [mem_insertSorted, h.mem_reserved]
      simp [or_comm]

theorem holds_ofNotes (notes : List Note) : (ofNotes notes).Holds notes := by
  have hfold (done todo : List Note) (r : Imports) (h : r.Holds done) :
      (todo.foldl Imports.note r).Holds (done ++ todo) := by
    induction todo generalizing done r with
    | nil => rwa [List.append_nil]
    | cons n todo ih =>
      have hrest := ih (done ++ [n]) (r.note n) (h.note n)
      rwa [List.append_assoc] at hrest
  refine hfold [] notes {} ?_
  constructor <;> simp

/-- Imports that hold the same notes are the same. -/
theorem Holds.eq {r r' : Imports} {notes notes' : List Note} (h : r.Holds notes)
    (h' : r'.Holds notes') (hsame : ∀ n, n ∈ notes ↔ n ∈ notes') : r = r' := by
  have hsymbols : r.symbols = r'.symbols :=
    Symbol.sorts_before.eq_of_mem_iff h.sorted_symbols h'.sorted_symbols fun s => by
      rw [h.mem_symbols, h'.mem_symbols, hsame]
  have hreserved : r.reserved = r'.reserved :=
    sorts_nameBefore.eq_of_mem_iff h.sorted_reserved h'.sorted_reserved fun name => by
      rw [h.mem_reserved, h'.mem_reserved, hsame]
  cases r
  cases r'
  simp_all

end Imports

end Scaffold.Source
