import Mathlib.Data.List.Infix
import Scaffold.Disk.Basic
import Scaffold.Disk.Path

/-!
Paths by their names alone. A joined path has the components of both its sides, and a path that is
put together from components has just these. Where a path leads, links left aside, follows from its
components and from where it starts.
-/

namespace Scaffold

namespace Path

/-- What stands between two slashes: a name, which is not empty and holds no slash. -/
def IsPart (s : String) : Prop := s ≠ "" ∧ '/' ∉ s.toList

theorem isPart_of_mem_parts {path s : String} (h : s ∈ parts path) : IsPart s := by
  obtain ⟨hmem, hne⟩ := List.mem_filter.mp h
  obtain ⟨piece, hpiece, rfl⟩ := List.mem_map.mp hmem
  refine ⟨bne_iff_ne.mp hne, fun hslash => ?_⟩
  rw [String.toList_ofList] at hslash
  exact absurd (Text.not_sep_of_mem_piecesWhere hpiece hslash) (by simp)

theorem parts_append_slash (a b : String) : parts (a ++ "/" ++ b) = parts a ++ parts b :=
  Text.filter_splitAt_append rfl _ a b

theorem parts_of_isPart {s : String} (h : IsPart s) : parts s = [s] := by
  simp [parts, Text.splitAt_of_not_mem h.2, h.1]

theorem parts_empty : parts "" = [] := by decide +kernel

theorem parts_join (directory name : String) :
    parts (join directory name) = parts directory ++ parts name := by
  unfold join
  split
  · next h =>
    rw [Bool.or_eq_true, String.isEmpty_iff] at h
    rcases h with rfl | h
    · rw [parts_empty, String.empty_append, List.nil_append]
    · obtain ⟨cs, hcs⟩ := List.getLast?_eq_some_iff.mp (beq_iff_eq.mp h)
      obtain rfl : directory = String.ofList cs ++ "/" ++ "" := by simp [← String.toList_inj, hcs]
      rw [parts_append_slash, String.append_empty, parts_append_slash, parts_empty,
        List.append_nil]
  · exact parts_append_slash directory name

theorem components_join (directory name : String) :
    components (join directory name) = components directory ++ components name := by
  rw [components, parts_join, List.filter_append]
  rfl

theorem parts_intercalate {names : List String} (h : ∀ s ∈ names, IsPart s) :
    parts (String.intercalate "/" names) = names := by
  induction names with
  | nil => exact parts_empty
  | cons s names ih =>
    obtain ⟨hs, hnames⟩ := List.forall_mem_cons.mp h
    cases names with
    | nil => exact parts_of_isPart hs
    | cons t names =>
      rw [String.intercalate_cons_cons, parts_append_slash, parts_of_isPart hs, ih hnames]
      rfl

theorem isAbsolute_append {a : String} (h : a ≠ "") (b : String) :
    isAbsolute (a ++ b) = isAbsolute a := by
  have hlist : a.toList ≠ [] := by simpa using h
  rw [isAbsolute, isAbsolute, String.toList_append, List.head?_append_of_ne_nil _ hlist]

theorem isAbsolute_of_isPart {s : String} (h : IsPart s) : isAbsolute s = false := by
  refine beq_false_of_ne fun hhead => h.2 ?_
  exact List.mem_of_head? hhead

theorem isAbsolute_join (directory : String) {name : String} (h : isAbsolute name = false) :
    isAbsolute (join directory name) = isAbsolute directory := by
  by_cases hempty : directory = ""
  · subst hempty
    exact h
  · unfold join
    split
    · exact isAbsolute_append hempty name
    · rw [String.append_assoc]
      exact isAbsolute_append hempty _

theorem isAbsolute_intercalate {names : List String} (h : ∀ s ∈ names, IsPart s) :
    isAbsolute (String.intercalate "/" names) = false := by
  cases names with
  | nil => rfl
  | cons s names =>
    have hs := (List.forall_mem_cons.mp h).1
    cases names with
    | nil => exact isAbsolute_of_isPart hs
    | cons t names =>
      rw [String.intercalate_cons_cons, String.append_assoc, isAbsolute_append hs.1]
      exact isAbsolute_of_isPart hs

end Path

namespace Location

/-- Where a component of a path leads from a location, whatever is there. -/
def enter (l : Location) (component : String) : Location :=
  if component = ".." then l.dropLast else l ++ [component]

end Location

namespace Path

/-- Where a path starts if relative paths start from `home`. -/
def start (home : Location) (path : String) : Location := if isAbsolute path then [] else home

/-- Where a path leads by its names alone, whether or not anything is there. -/
def location (home : Location) (path : String) : Location :=
  (components path).foldl Location.enter (start home path)

/-- The path leads to the location or through it. -/
def Passes (home : Location) (path : String) (l : Location) : Prop :=
  ∃ names, names <+: components path ∧ names.foldl Location.enter (start home path) = l

variable (home : Location) (directory : String) {name below : String}

theorem start_join (h : isAbsolute name = false) :
    start home (join directory name) = start home directory := by
  rw [start, start, isAbsolute_join directory h]

theorem location_join (h : isAbsolute name = false) :
    location home (join directory name) =
      (components name).foldl Location.enter (location home directory) := by
  rw [location, components_join, start_join home directory h, List.foldl_append]
  rfl

theorem join_of_endsInSlash_eq {directory : String} (hne : directory ≠ "")
    (h : endsInSlash directory = false) (name : String) :
    join directory name = directory ++ "/" ++ name := by
  have hempty : directory.isEmpty = false := by simpa using hne
  unfold join
  rw [h, hempty]
  rfl

/-- A part that leads downwards. -/
def IsName (s : String) : Prop := IsPart s ∧ s ≠ "." ∧ s ≠ ".."

instance (s : String) : Decidable (IsName s) :=
  inferInstanceAs (Decidable ((s ≠ "" ∧ '/' ∉ s.toList) ∧ s ≠ "." ∧ s ≠ ".."))

namespace IsName

theorem components_eq (h : IsName name) : components name = [name] := by
  rw [components, parts_of_isPart h.1]
  exact List.filter_eq_self.mpr fun s hs => bne_iff_ne.mpr (List.mem_singleton.mp hs ▸ h.2.1)

theorem isAbsolute_eq (h : IsName name) : isAbsolute name = false := isAbsolute_of_isPart h.1

theorem enter_eq (h : IsName name) (l : Location) : l.enter name = l ++ [name] := if_neg h.2.2

theorem join_ne_empty (h : IsName name) : join directory name ≠ "" := by
  unfold join
  split
  · exact fun heq => h.1.1 (String.append_eq_empty_iff.mp heq).2
  · exact fun heq => h.1.1 (String.append_eq_empty_iff.mp heq).2

theorem location_join (h : IsName name) :
    location home (join directory name) = location home directory ++ [name] := by
  rw [Path.location_join home directory h.isAbsolute_eq, h.components_eq]
  exact h.enter_eq _

theorem location_join_join (h : IsName name) (hbelow : IsName below) :
    location home (join directory (join name below)) =
      location home directory ++ [name, below] := by
  have hrelative : isAbsolute (join name below) = false := by
    rw [isAbsolute_join name hbelow.isAbsolute_eq, h.isAbsolute_eq]
  rw [Path.location_join home directory hrelative, components_join, h.components_eq,
    hbelow.components_eq]
  change ((location home directory).enter name).enter below = _
  rw [h.enter_eq, hbelow.enter_eq, List.append_assoc]
  rfl

/-- A path with one more name passes where it passed before, and where it leads now. -/
theorem passes_join (h : IsName name) {l : Location} (hl : Passes home (join directory name) l) :
    l = location home (join directory name) ∨ Passes home directory l := by
  obtain ⟨names, hprefix, rfl⟩ := hl
  rw [components_join, h.components_eq, List.prefix_concat_iff] at hprefix
  rcases hprefix with rfl | hprefix
  · left
    rw [location, components_join, h.components_eq]
  · exact Or.inr ⟨names, hprefix, by rw [start_join home directory h.isAbsolute_eq]⟩

theorem endsInSlash_eq (h : IsName name) : endsInSlash name = false :=
  beq_false_of_ne fun hlast => h.1.2 (List.mem_of_getLast? hlast)

theorem endsInSlash_join (h : IsName name) :
    endsInSlash (join directory name) = false := by
  have happend (front : String) : endsInSlash (front ++ name) = endsInSlash name := by
    have hne : name.toList ≠ [] := by simpa using h.1.1
    rw [endsInSlash, endsInSlash, String.toList_append, List.getLast?_append_of_ne_nil _ hne]
  unfold join
  split
  · rw [happend, h.endsInSlash_eq]
  · rw [happend, h.endsInSlash_eq]

/-- Two names below a directory are one name below the directory of the other. -/
theorem join_join (h : IsName name) (below : String) :
    join directory (join name below) = join (join directory name) below := by
  rw [join_of_endsInSlash_eq h.1.1 h.endsInSlash_eq,
    join_of_endsInSlash_eq (h.join_ne_empty directory) (h.endsInSlash_join directory)]
  unfold join
  split
  · simp only [String.append_assoc]
  · simp only [String.append_assoc]

end IsName

end Path

end Scaffold
