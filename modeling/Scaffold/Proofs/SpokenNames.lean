import Scaffold.Proofs.UseLines

/-!
Which local names are identifiers. The name that a symbol is exported under has been checked, and an
alias made of it and of its module has not: the marker of a raw identifier ends up inside the alias,
a digit may come to stand first, and the two parts may join into a keyword.
-/

namespace Scaffold

namespace Text

/-- The last piece is what stands behind the last double colon that splits the path. -/
theorem exists_pathPieces_concat (cs : List Char) :
    ∃ init last, pathPieces cs = init ++ [last] ∧
      (init = [] ∧ cs = last ∨ init ≠ [] ∧ ∃ front, cs = front ++ ':' :: ':' :: last) := by
  fun_induction pathPieces cs with
  | case1 => exact ⟨[], [], rfl, .inl ⟨rfl, rfl⟩⟩
  | case2 cs ih =>
    obtain ⟨init, last, hpieces, hcs⟩ := ih
    refine ⟨[] :: init, last, by rw [hpieces, List.cons_append], .inr ⟨List.cons_ne_nil _ _, ?_⟩⟩
    rcases hcs with ⟨-, rfl⟩ | ⟨-, front, rfl⟩
    · exact ⟨[], rfl⟩
    · exact ⟨':' :: ':' :: front, rfl⟩
  | case3 c cs hnot hnil ih =>
    obtain ⟨init, last, hpieces, -⟩ := ih
    rw [hnil] at hpieces
    exact absurd hpieces.symm (by simp)
  | case4 c cs hnot piece rest hcons ih =>
    obtain ⟨init, last, hpieces, hcs⟩ := ih
    rw [hcons] at hpieces
    cases init with
    | nil =>
      obtain ⟨rfl, rfl⟩ := List.cons.inj hpieces
      have hlast : cs = piece := hcs.elim And.right fun h => absurd rfl h.1
      exact ⟨[], c :: piece, rfl, .inl ⟨rfl, by rw [hlast]⟩⟩
    | cons first init =>
      obtain ⟨rfl, rfl⟩ := List.cons.inj hpieces
      refine ⟨(c :: piece) :: init, last, rfl, .inr ⟨List.cons_ne_nil _ _, ?_⟩⟩
      obtain ⟨front, hfront⟩ := (hcs.resolve_left fun h => List.cons_ne_nil _ _ h.1).2
      exact ⟨c :: front, by rw [hfront, List.cons_append]⟩

end Text

namespace Naming

theorem isSegment_lastSegment {path : String} (h : isPath path = true) :
    IsSegment (Text.lastSegment path) := by
  obtain ⟨init, last, hpieces, hcs⟩ := Text.exists_pathPieces_concat path.toList
  have hsegment : IsSegment (String.ofList last) :=
    (isPath_iff path).mp h last (by rw [hpieces]; exact List.mem_concat_self)
  have hcolon : ':' ∉ (String.ofList last).toList := fun hmem =>
    absurd (hsegment.inSegment hmem) (by decide)
  rcases hcs with ⟨-, hlast⟩ | ⟨-, front, hfront⟩
  · have hpath : String.ofList last = path := by rw [← hlast, String.ofList_toList]
    rw [hpath] at hsegment hcolon
    rwa [Text.lastSegment_of_not_mem hcolon]
  · have hpath : path = String.ofList front ++ "::" ++ String.ofList last := by
      rw [← String.toList_inj, hfront]
      simp
    rwa [hpath, Text.lastSegment_append _ hcolon]

theorem isWord_append {cs ds : List Char} (h : isWord cs = true)
    (hds : ∀ d ∈ ds, isWordChar d = true) : isWord (cs ++ ds) = true := by
  cases cs with
  | nil => cases h
  | cons c cs =>
    obtain ⟨hdigit, hword, hlone⟩ := (isWord_cons_iff c cs).mp h
    refine (isWord_cons_iff c (cs ++ ds)).mpr ⟨hdigit, ?_, fun heq => ?_⟩
    · exact fun d hd => (List.mem_append.mp hd).elim (hword d) (hds d)
    · obtain ⟨rfl, hnil⟩ := List.cons.inj heq
      exact hlone (by rw [(List.append_eq_nil_iff.mp hnil).1])

/-- A number behind an identifier gives an identifier, because no word of the language holds a
digit. -/
theorem isIdentifier_append_digits {name : String} (h : isIdentifier name = true)
    {digits : List Char} (hdigits : ∀ d ∈ digits, d.isDigit = true) :
    isIdentifier (name ++ String.ofList digits) = true := by
  have hwordChar : ∀ d ∈ digits, isWordChar d = true := fun d hd =>
    isWordChar_of_isDigit (hdigits d hd)
  have hwords : ∀ word ∈ keywords ++ neverRaw, word.toList.any Char.isDigit = false := by
    decide +kernel
  cases digits with
  | nil => rwa [String.ofList_nil, String.append_empty]
  | cons d digits =>
    have hnew (bare : String) : bare ++ String.ofList (d :: digits) ∉ keywords ++ neverRaw := by
      intro hmem
      have hd := List.any_eq_false.mp (hwords _ hmem) d (by simp)
      exact hd (hdigits d List.mem_cons_self)
    simp only [List.mem_append, not_or] at hnew
    unfold isIdentifier at h
    split at h
    · next bare hraw =>
      rw [Bool.and_eq_true] at h
      have hname : name ++ String.ofList (d :: digits) =
          "r#" ++ (String.ofList bare ++ String.ofList (d :: digits)) := by
        rw [← String.toList_inj]
        simp [hraw]
      rw [hname]
      apply isIdentifier_raw
      · rw [String.toList_append, String.toList_ofList, String.toList_ofList]
        exact isWord_append h.1 hwordChar
      · simpa using (hnew (String.ofList bare)).2
    · rw [Bool.and_eq_true] at h
      apply isIdentifier_of_isWord
      · rw [String.toList_append, String.toList_ofList]
        exact isWord_append h.1 hwordChar
      · simpa [isKeyword] using (hnew name).1

/-- One keyword starts with a capital. -/
theorem isKeyword_iff_of_isUpper {name : String} {c : Char} {cs : List Char}
    (hname : name.toList = c :: cs) (hupper : c.isUpper = true) :
    isKeyword name = true ↔ name = "Self" := by
  have hcapital : ∀ word ∈ keywords, word.toList.head?.any Char.isUpper = true → word = "Self" := by
    decide +kernel
  constructor
  · intro hkeyword
    refine hcapital name (List.contains_iff_mem.mp hkeyword) ?_
    rw [hname]
    exact hupper
  · rintro rfl
    decide +kernel

/-- What a text behind a capitalized character needs to be an identifier. It is not taken for a raw
one, because the marker of those starts with a small letter. -/
theorem isIdentifier_iff_of_capital {name : String} {c : Char} {cs : List Char}
    (hname : name.toList = c.toUpper :: cs) (hc : c.toNat < 128) (hlone : c ≠ '_')
    (hchars : ∀ d ∈ name.toList, InSegment d) :
    isIdentifier name = true ↔ c.isAlpha = true ∧ '#' ∉ name.toList ∧ name ≠ "Self" := by
  obtain ⟨hsmall, hunderscore, halpha, hupper⟩ :=
    forall_ascii (fun d => d ≠ '_' → d.toUpper ≠ 'r' ∧ d.toUpper ≠ '_' ∧
      d.toUpper.isAlpha = d.isAlpha ∧ (d.isAlpha = true → d.toUpper.isUpper = true))
      (by decide +kernel) c hc hlone
  have hplain : isIdentifier name = (isWord name.toList && !isKeyword name) := by
    unfold isIdentifier
    split
    · next bare hraw =>
      rw [hname] at hraw
      exact absurd (List.cons.inj hraw).1 hsmall
    · rfl
  have hall : cs.all isWordChar = true ↔ '#' ∉ cs := by
    rw [List.all_eq_true]
    constructor
    · exact fun hword hmem => absurd (hword '#' hmem) (by decide)
    · intro hmem d hd
      exact (hchars d (by rw [hname]; exact List.mem_cons_of_mem _ hd)).resolve_right
        fun heq => hmem (heq ▸ hd)
  have hhead : (c.toUpper == '_') = false := beq_eq_false_iff_ne.mpr hunderscore
  rw [hplain, hname, isWord, hhead, Bool.or_false, Bool.false_and, Bool.not_false, Bool.and_true,
    halpha, Bool.and_eq_true, Bool.and_eq_true, hall, and_assoc]
  refine and_congr_right fun hletter => ?_
  have hmarker : '#' ≠ c.toUpper := fun heq => absurd (heq ▸ hupper hletter) (by decide)
  rw [Bool.not_eq_true', ← Bool.not_eq_true, isKeyword_iff_of_isUpper hname (hupper hletter),
    List.mem_cons, not_or, and_iff_right hmarker]

theorem InSegment.lt {c : Char} (h : InSegment c) : c.toNat < 128 := by
  rcases h with h | rfl
  · exact toNat_lt_of_isWordChar h
  · decide

theorem InSegment.upper_eq {c : Char} (h : InSegment c) : Text.upper c = [c.toUpper] := by
  rw [Text.upper, if_pos h.lt]

theorem inSegment_of_mem_titleCase {segment : String} (h : ∀ c ∈ segment.toList, InSegment c)
    {d : Char} (hd : d ∈ (titleCase segment).toList) : InSegment d := by
  obtain ⟨c, hc, -, hd⟩ := mem_titleCase hd
  rw [(h c hc).upper_eq, List.mem_singleton] at hd
  rcases hd with rfl | rfl
  · exact h d hc
  · exact forall_ascii (fun c => InSegment c → InSegment c.toUpper) (by decide +kernel) c
      (h c hc).lt (h c hc)

theorem marker_mem_titleCase_iff {segment : String} (h : ∀ c ∈ segment.toList, InSegment c) :
    '#' ∈ (titleCase segment).toList ↔ '#' ∈ segment.toList := by
  constructor
  · intro hmem
    obtain ⟨c, hc, -, hd⟩ := mem_titleCase hmem
    rw [(h c hc).upper_eq, List.mem_singleton] at hd
    have hmarker := forall_ascii (fun c => '#' = c ∨ '#' = c.toUpper → c = '#')
      (by decide +kernel) c (h c hc).lt hd
    rwa [hmarker] at hc
  · exact fun hmem => mem_titleCase_of_mem hmem (by decide) (by decide)

end Naming

namespace Source

open Naming

namespace Symbol

/-- The module that the symbol is exported by, without the path to it. -/
def parent (s : Symbol) : String := Text.lastSegment s.path

/-- The parent module has nothing but underscores, so that an alias is the name with a number. -/
def HasBlankParent (s : Symbol) : Prop := s.parent.toList.all isTitleBreak = true

/-- A letter comes first in the parent module, underscores aside, and neither the module nor the
name is raw. -/
def HasPlainParts (s : Symbol) : Prop :=
  (s.parent.toList.find? fun c => !isTitleBreak c).any Char.isAlpha = true ∧
    '#' ∉ s.parent.toList ∧ '#' ∉ s.name.toList

instance : DecidablePred HasBlankParent := fun _ => inferInstanceAs (Decidable (_ = true))

instance : DecidablePred HasPlainParts := fun _ => inferInstanceAs (Decidable (_ ∧ _))

end Symbol

namespace Imports

/-- A candidate for an alias is the capitalized parent module, the name, and maybe a number. -/
theorem exists_toList_aliasAt_eq (s : Symbol) (i : ℕ) :
    ∃ digits : List Char, (∀ d ∈ digits, d.isDigit = true) ∧
      (aliasAt (aliasBase s) i).toList =
        (titleCase s.parent).toList ++ (s.name.toList ++ digits) := by
  have hbase : (aliasBase s).toList = (titleCase s.parent).toList ++ s.name.toList :=
    String.toList_append
  by_cases hi : i = 0
  · refine ⟨[], nofun, ?_⟩
    rw [aliasAt, if_pos hi, hbase, List.append_nil]
  · refine ⟨Nat.toDigits 10 (i + 1), fun d hd => ?_, ?_⟩
    · exact Nat.isDigit_of_mem_toDigits (by decide) (by decide) hd
    · rw [aliasAt, if_neg hi, String.toList_append, hbase, Nat.toString_eq_ofList_toDigits,
        String.toList_ofList, List.append_assoc]

variable {s : Symbol}

theorem inSegment_of_mem_parent (h : s.Importable) : ∀ c ∈ s.parent.toList, InSegment c :=
  fun _ hc => (isSegment_lastSegment h.1).inSegment hc

theorem inSegment_of_mem_aliasAt (h : s.Importable) (i : ℕ) {c : Char}
    (hc : c ∈ (aliasAt (aliasBase s) i).toList) : InSegment c := by
  obtain ⟨digits, hdigits, halias⟩ := exists_toList_aliasAt_eq s i
  rw [halias, List.mem_append, List.mem_append] at hc
  rcases hc with hc | hc | hc
  · exact inSegment_of_mem_titleCase (inSegment_of_mem_parent h) hc
  · exact inSegment_of_isIdentifier h.2 hc
  · exact .inl (isWordChar_of_isDigit (hdigits c hc))

theorem marker_mem_aliasAt_iff (h : s.Importable) (i : ℕ) :
    '#' ∈ (aliasAt (aliasBase s) i).toList ↔ '#' ∈ s.parent.toList ∨ '#' ∈ s.name.toList := by
  obtain ⟨digits, hdigits, halias⟩ := exists_toList_aliasAt_eq s i
  have hnumber : '#' ∉ digits := fun hd => absurd (hdigits '#' hd) (by decide)
  rw [halias, List.mem_append, List.mem_append, or_iff_left hnumber,
    marker_mem_titleCase_iff (inSegment_of_mem_parent h)]

/-- A candidate for an alias is an identifier if it is the name with a number, or if its parts are
plain and it is not the keyword that starts with a capital. -/
theorem isIdentifier_aliasAt_iff (h : s.Importable) (i : ℕ) :
    isIdentifier (aliasAt (aliasBase s) i) = true ↔
      s.HasBlankParent ∨ s.HasPlainParts ∧ aliasAt (aliasBase s) i ≠ "Self" := by
  obtain ⟨digits, hdigits, halias⟩ := exists_toList_aliasAt_eq s i
  -- only a blank parent has an empty title, and the first character of any other decides
  cases hfind : s.parent.toList.find? (fun d => !isTitleBreak d) with
  | none =>
    have hbreaks : ∀ c ∈ s.parent.toList, isTitleBreak c = true := by
      simpa using List.find?_eq_none.mp hfind
    have hname : aliasAt (aliasBase s) i = s.name ++ String.ofList digits := by
      rw [titleCase_of_breaks hbreaks] at halias
      rw [← String.toList_inj, halias]
      simp
    rw [hname]
    exact iff_of_true (isIdentifier_append_digits h.2 hdigits)
      (.inl (List.all_eq_true.mpr hbreaks))
  | some c =>
    have hc : InSegment c := inSegment_of_mem_parent h c (List.mem_of_find?_eq_some hfind)
    have hopens : isTitleBreak c = false := by simpa using List.find?_some hfind
    have hblank : ¬ s.HasBlankParent := fun hblank => by
      rw [List.all_eq_true.mp hblank c (List.mem_of_find?_eq_some hfind)] at hopens
      cases hopens
    obtain ⟨rest, htitle⟩ := exists_titleCase_eq hfind
    rw [htitle, hc.upper_eq, List.append_assoc] at halias
    have hlone : c ≠ '_' := fun heq => absurd (heq ▸ hopens) (by decide)
    rw [isIdentifier_iff_of_capital halias hc.lt hlone fun d => inSegment_of_mem_aliasAt h i,
      marker_mem_aliasAt_iff h, or_iff_right hblank, Symbol.HasPlainParts, hfind, Option.any_some,
      and_assoc, not_or]

/-- Where a file has a text, its import lines and its items speak of registered symbols alone. The
name that a symbol is spoken by is an identifier exactly if the symbol keeps its name, or if its
alias is the name with a number, or if the alias has plain parts and is no keyword. -/
theorem spoken_name_is_identifier_iff (f : File) (notes : List Note)
    (himports : f.imports = ofNotes notes) (hrenders : ∃ text, f.render = .ok text) :
    (∀ s, .registered s ∈ itemRequirements f.speaker f.items → s ∈ f.imports.symbols) ∧
    (∀ line ∈ f.imports.useLines, ∃ s ∈ f.imports.symbols, line = useLine s (f.speaker s)) ∧
    ∀ s ∈ f.imports.symbols, (isIdentifier (f.speaker s) = true ↔
      (f.imports.NeedsAlias s → s.HasBlankParent ∨ s.HasPlainParts ∧ f.speaker s ≠ "Self")) := by
  have hholds : f.imports.Holds notes := himports ▸ holds_ofNotes notes
  have hmet := (Met.append_iff.mp ((File.render_ok_iff f).mp hrenders)).2
  refine ⟨fun s hs => ?_, fun line hline => ?_, fun s hs => ?_⟩
  · exact (isSome_localName?_iff f.imports s).mp
      ((Requirement.registered_defect?_eq_none_iff f.imports s).mp (hmet _ hs))
  · rw [useLines_eq_map] at hline
    obtain ⟨p, hp, rfl⟩ := List.mem_map.mp hline
    have hname := mem_localNames_iff.mp (f.imports.perm_inLineOrder.mem_iff.mp hp)
    refine ⟨p.1, mem_symbols_of_localName? hname, ?_⟩
    rw [f.speaker_eq_spoken, spoken, hname, Option.getD_some]
  · have himportable := File.importable_of_renders hrenders s hs
    have hname : f.imports.localName? s = some (f.speaker s) := localName?_eq_some_spoken hs
    by_cases hneeds : f.imports.NeedsAlias s
    · obtain ⟨i, halias, -⟩ := hholds.isFirstFree_of_needsAlias hname hneeds
      rw [halias, isIdentifier_aliasAt_iff himportable]
      exact ⟨fun h _ => h, fun h => h hneeds⟩
    · rw [hholds.eq_name_of_not_needsAlias hname hneeds]
      exact iff_of_true himportable.2 fun h => absurd h hneeds

/-- Two routers of one name. -/
def laneNotes : List Note := [.symbol ⟨"axum", "Router"⟩, .symbol ⟨"fleet::_sea_lane", "Router"⟩]

def laneFile : File := { imports := ofNotes laneNotes }

theorem laneFile_spoken_name_is_identifier :
    laneFile.speaker ⟨"fleet::_sea_lane", "Router"⟩ = "SeaLaneRouter" ∧
    isIdentifier (laneFile.speaker ⟨"fleet::_sea_lane", "Router"⟩) = true := by
  have hspoken : laneFile.speaker ⟨"fleet::_sea_lane", "Router"⟩ = "SeaLaneRouter" := by
    rw [File.speaker_eq_spoken, spoken, localName?, assignment_of_sorted (by decide +kernel)]
    decide +kernel
  have hrenders : ∃ text, laneFile.render = .ok text := by
    apply File.renders_of_importable
    decide +kernel
  obtain ⟨-, -, hall⟩ := spoken_name_is_identifier_iff laneFile laneNotes rfl hrenders
  refine ⟨hspoken, (hall _ (by decide +kernel)).mpr fun _ => .inr ⟨?_, ?_⟩⟩
  · decide +kernel
  · rw [hspoken]
    decide +kernel

/-- A raw module, a module that opens with a digit behind its underscore, and a module that makes a
keyword of the name. -/
def strayNotes : List Note :=
  [.symbol ⟨"a", "Kind"⟩, .symbol ⟨"b::r#type", "Kind"⟩, .symbol ⟨"c::_1", "Kind"⟩,
    .symbol ⟨"d", "elf"⟩, .symbol ⟨"e::s", "elf"⟩]

def strayFile : File := { imports := ofNotes strayNotes }

theorem strayFile_spoken_names_are_no_identifiers :
    (∃ text, strayFile.render = .ok text) ∧
    strayFile.imports.symbols.map strayFile.speaker =
      ["Kind", "R#typeKind", "1Kind", "elf", "Self"] ∧
    ∀ name ∈ ["R#typeKind", "1Kind", "Self"], isIdentifier name = false := by
  have hnames : strayFile.imports.localNames.map Prod.snd =
      ["Kind", "R#typeKind", "1Kind", "elf", "Self"] := by
    rw [localNames, assignment_of_sorted (by decide +kernel)]
    decide +kernel
  refine ⟨File.renders_of_importable (by decide +kernel), ?_, by decide +kernel⟩
  rwa [localNames_eq_map, List.map_map] at hnames

end Imports

end Source

end Scaffold
