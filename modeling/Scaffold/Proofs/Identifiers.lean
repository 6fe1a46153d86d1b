import Mathlib.Data.List.Basic
import Scaffold.Proofs.Words
import Scaffold.Service.Names

/-!
Generated names are identifiers: the method of every accepted handler name, and the crate and the
traits of every valid project name. Words keep to letters, digits and underscores under every
spelling, and only a keyword has to be escaped.
-/

namespace Scaffold.Naming

open Text

theorem isIdentifier_of_isWord {name : String} (hword : isWord name.toList = true)
    (hkeyword : isKeyword name = false) : isIdentifier name = true := by
  unfold isIdentifier
  split
  · next bare hraw =>
    rw [hraw, isWord_cons_iff] at hword
    have hmarker := hword.2.1 '#' (by simp)
    exact absurd hmarker (by decide)
  · rw [hword, hkeyword]
    rfl

theorem isIdentifier_raw {name : String} (hword : isWord name.toList = true)
    (hraw : neverRaw.contains name = false) : isIdentifier ("r#" ++ name) = true := by
  have hlist : ("r#" ++ name).toList = 'r' :: '#' :: name.toList := by
    rw [String.toList_append]
    rfl
  simp only [isIdentifier, hlist, hword, String.ofList_toList, hraw]
  rfl

/-- Escaping makes an identifier of every word, keywords included. -/
theorem isIdentifier_escapeKeyword {name : String} (hword : isWord name.toList = true) :
    isIdentifier (escapeKeyword name) = true := by
  unfold escapeKeyword
  cases hraw : neverRaw.contains name with
  | true =>
    have hescaped : ∀ w ∈ neverRaw, isIdentifier (w ++ "_") = true := by decide +kernel
    exact hescaped name (List.contains_iff_mem.mp hraw)
  | false =>
    cases hkeyword : isKeyword name with
    | true => exact isIdentifier_raw hword hraw
    | false => exact isIdentifier_of_isWord hword hkeyword

theorem lower_of_isWordChar {c : Char} (h : isWordChar c = true) : lower c = [c.toLower] := by
  simp only [lower, toNat_lt_of_isWordChar h, if_true]

theorem isWordChar_toLower {c : Char} (h : isWordChar c = true) : isWordChar c.toLower = true :=
  forall_ascii (fun d => isWordChar d = true → isWordChar d.toLower = true) (by decide +kernel) c
    (toNat_lt_of_isWordChar h) h

theorem isAlpha_toLower_of_isUpper {c : Char} (h : isWordChar c = true)
    (hupper : isUpper c = true) :
    c.toLower.isAlpha = true := by
  have hlt := toNat_lt_of_isWordChar h
  rw [isUpper, if_pos hlt] at hupper
  exact forall_ascii (fun d => d.isUpper = true → d.toLower.isAlpha = true) (by decide +kernel) c
    hlt
    hupper

/-- A character as it is spelled: a capital in its small form, all others as they are. -/
def spelled (c : Char) : List Char := if isUpper c then lower c else [c]

theorem snakeFrom_cons (before : Option Char) (c : Char) (cs : List Char) :
    snakeFrom before (c :: cs) =
      (if isUpper c && opensWord before cs.head? then ['_'] else []) ++
        (spelled c ++ snakeFrom (some c) cs) := by
  by_cases hc : isUpper c = true
  · simp [snakeFrom, spelled, hc]
  · simp [snakeFrom, spelled, hc]

theorem mem_snakeFrom {before : Option Char} {cs : List Char} {d : Char}
    (h : d ∈ snakeFrom before cs) : d = '_' ∨ ∃ c ∈ cs, d ∈ spelled c := by
  induction cs generalizing before with
  | nil => cases h
  | cons c cs ih =>
    rw [snakeFrom_cons, List.mem_append, List.mem_append] at h
    rcases h with hgap | hspelled | hrest
    · left
      split at hgap
      · exact List.mem_singleton.mp hgap
      · cases hgap
    · exact Or.inr ⟨c, List.mem_cons_self, hspelled⟩
    · exact (ih hrest).imp_right fun ⟨e, he, hd⟩ => ⟨e, List.mem_cons_of_mem c he, hd⟩

theorem isWordChar_of_mem_spelled {c d : Char} (hc : isWordChar c = true) (hd : d ∈ spelled c) :
    isWordChar d = true := by
  unfold spelled at hd
  split at hd
  · rw [lower_of_isWordChar hc] at hd
    rw [List.mem_singleton.mp hd]
    exact isWordChar_toLower hc
  · rwa [List.mem_singleton.mp hd]

theorem isWordChar_of_mem_snakeFrom (before : Option Char) {cs : List Char}
    (h : ∀ c ∈ cs, isWordChar c = true) : ∀ c ∈ snakeFrom before cs, isWordChar c = true := by
  intro d hd
  rcases mem_snakeFrom hd with rfl | ⟨c, hc, hspelled⟩
  · rfl
  · exact isWordChar_of_mem_spelled (h c hc) hspelled

theorem snakeFrom_ne_nil {before : Option Char} {c : Char} {cs : List Char}
    (h : isWordChar c = true) : snakeFrom before (c :: cs) ≠ [] := by
  unfold snakeFrom
  rw [lower_of_isWordChar h]
  split <;> simp

/-- The underscores between words leave a word a word. -/
theorem isWord_snakeFrom {cs : List Char} (h : isWord cs = true) :
    isWord (snakeFrom none cs) = true := by
  cases cs with
  | nil => simp [isWord] at h
  | cons c cs =>
    obtain ⟨hdigit, hchars, hlone⟩ := (isWord_cons_iff c cs).mp h
    have hc : isWordChar c = true := hchars c List.mem_cons_self
    have hsnake := isWordChar_of_mem_snakeFrom none hchars
    by_cases hupper : isUpper c = true
    · have hfirst : snakeFrom none (c :: cs) = c.toLower :: snakeFrom (some c) cs := by
        simp [snakeFrom, hupper, opensWord, lower_of_isWordChar hc]
      have hletter := isAlpha_toLower_of_isUpper hc hupper
      have hhead := (isHead_iff c.toLower).mp (Or.inl hletter)
      rw [hfirst] at hsnake ⊢
      refine (isWord_cons_iff _ _).mpr ⟨hhead.1, hsnake, ?_⟩
      intro heq
      rw [(List.cons.inj heq).1] at hletter
      exact absurd hletter (by decide)
    · have hfirst : snakeFrom none (c :: cs) = c :: snakeFrom (some c) cs := by
        simp [snakeFrom, hupper]
      rw [hfirst] at hsnake ⊢
      refine (isWord_cons_iff _ _).mpr ⟨hdigit, hsnake, ?_⟩
      intro heq
      obtain ⟨rfl, hrest⟩ := List.cons.inj heq
      cases cs with
      | nil => exact hlone rfl
      | cons d ds =>
        exact snakeFrom_ne_nil (hchars d (List.mem_cons_of_mem _ List.mem_cons_self)) hrest

/-- Every accepted handler name generates an identifier. -/
theorem isIdentifier_methodName {handler : String} (h : IsHandlerName handler) :
    isIdentifier (methodName handler) = true := by
  apply isIdentifier_escapeKeyword
  rw [snakeCase, String.toList_ofList]
  exact isWord_snakeFrom ((isWord_iff handler).mpr h)

/-- A project name read as a condition on its characters. -/
structure IsProjectName (name : String) : Prop where
  opens : ∃ c rest, name.toList = c :: rest ∧ c.isAlpha = true
  chars : ∀ c ∈ name.toList, c.isAlphanum = true ∨ c = '_' ∨ c = '-'
  crate_ident : isKeyword (crateIdent name) = false

theorem isProjectName_iff (name : String) : isProjectName name = true ↔ IsProjectName name := by
  constructor
  · intro h
    unfold isProjectName at h
    cases hname : name.toList with
    | nil => simp [hname] at h
    | cons c cs =>
      simp only [hname, Bool.and_eq_true, List.all_eq_true, Bool.or_eq_true, beq_iff_eq,
        Bool.not_eq_true'] at h
      refine ⟨⟨c, cs, hname, h.1.1⟩, ?_, h.2⟩
      intro d hd
      rw [hname] at hd
      rcases List.mem_cons.mp hd with rfl | hd
      · exact Or.inl (by simp [Char.isAlphanum, h.1.1])
      · exact or_assoc.mp (h.1.2 d hd)
  · rintro ⟨⟨c, cs, hname, hc⟩, hchars, hkeyword⟩
    simp only [isProjectName, hname, hc, hkeyword, Bool.true_and, Bool.not_false, Bool.and_true,
      List.all_eq_true, Bool.or_eq_true, beq_iff_eq]
    intro d hd
    exact or_assoc.mpr (hchars d (hname ▸ List.mem_cons_of_mem c hd))

theorem isWord_crateIdent {name : String} (h : IsProjectName name) :
    isWord (crateIdent name).toList = true := by
  obtain ⟨c, cs, hname, hc⟩ := h.opens
  have hdash : c ≠ '-' := by
    rintro rfl
    exact absurd hc (by decide)
  have hhead := (isHead_iff c).mp (Or.inl hc)
  have hlist : (crateIdent name).toList =
      c :: cs.map fun d => if d == '-' then '_' else d := by
    simp [crateIdent, hname, hdash]
  rw [hlist]
  refine (isWord_cons_iff _ _).mpr ⟨hhead.1, ?_, ?_⟩
  · intro d hd
    rcases List.mem_cons.mp hd with rfl | hd
    · exact hhead.2
    · obtain ⟨e, he, rfl⟩ := List.mem_map.mp hd
      rcases h.chars e (hname ▸ List.mem_cons_of_mem c he) with halnum | rfl | rfl
      · have hne : e ≠ '-' := by
          rintro rfl
          exact absurd halnum (by decide)
        simp [hne, isWordChar, halnum]
      · rfl
      · rfl
  · intro heq
    rw [(List.cons.inj heq).1] at hc
    exact absurd hc (by decide)

/-- The crate of a project with a valid name can be named. -/
theorem isIdentifier_crateIdent {name : String} (h : IsProjectName name) :
    isIdentifier (crateIdent name) = true :=
  isIdentifier_of_isWord (isWord_crateIdent h) h.crate_ident

theorem mem_of_mem_piecesWhere {sep : Char → Bool} {cs piece : List Char}
    (h : piece ∈ piecesWhere sep cs) {c : Char} (hc : c ∈ piece) : c ∈ cs := by
  induction cs generalizing piece with
  | nil => simp_all [piecesWhere]
  | cons d cs ih =>
    unfold piecesWhere at h
    split at h
    · rcases List.mem_cons.mp h with rfl | h
      · simp at hc
      · exact List.mem_cons_of_mem d (ih h hc)
    · split at h <;> grind

theorem mem_piecesWhere_of_mem {sep : Char → Bool} {cs : List Char} {c : Char} (h : c ∈ cs)
    (hc : sep c = false) : ∃ piece ∈ piecesWhere sep cs, c ∈ piece := by
  induction cs with
  | nil => cases h
  | cons d cs ih =>
    unfold piecesWhere
    rcases List.mem_cons.mp h with rfl | h
    · rw [hc]
      cases piecesWhere sep cs with
      | nil => exact ⟨[c], List.mem_singleton_self _, List.mem_singleton_self c⟩
      | cons piece rest => exact ⟨c :: piece, List.mem_cons_self, List.mem_cons_self⟩
    · obtain ⟨piece, hpiece, hmem⟩ := ih h
      split
      · exact ⟨piece, List.mem_cons_of_mem _ hpiece, hmem⟩
      · split
        · next hnil => rw [hnil] at hpiece; cases hpiece
        · next other rest hcons =>
          rw [hcons] at hpiece
          rcases List.mem_cons.mp hpiece with rfl | hpiece
          · exact ⟨d :: piece, List.mem_cons_self, List.mem_cons_of_mem d hmem⟩
          · exact ⟨piece, List.mem_cons_of_mem _ hpiece, hmem⟩

def isTitleBreak (c : Char) : Bool := c == '-' || c == '_' || c == ' '

theorem toList_titleCase (s : String) :
    (titleCase s).toList = (piecesWhere isTitleBreak s.toList).flatMap capitalize :=
  String.toList_ofList

theorem mem_capitalize {cs : List Char} {d : Char} (h : d ∈ capitalize cs) :
    ∃ c ∈ cs, d = c ∨ d ∈ upper c := by
  cases cs with
  | nil => cases h
  | cons c cs =>
    rcases List.mem_append.mp h with h | h
    · exact ⟨c, List.mem_cons_self, .inr h⟩
    · exact ⟨d, List.mem_cons_of_mem c h, .inl rfl⟩

/-- A title is made of the characters that break no word, some of them capitalized. -/
theorem mem_titleCase {s : String} {d : Char} (h : d ∈ (titleCase s).toList) :
    ∃ c ∈ s.toList, isTitleBreak c = false ∧ (d = c ∨ d ∈ upper c) := by
  rw [toList_titleCase] at h
  obtain ⟨piece, hpiece, hd⟩ := List.mem_flatMap.mp h
  obtain ⟨c, hc, hd⟩ := mem_capitalize hd
  exact ⟨c, mem_of_mem_piecesWhere hpiece hc, not_sep_of_mem_piecesWhere hpiece hc, hd⟩

/-- Breaks in front of a text leave its title as it is. -/
theorem flatMap_capitalize_append {breaks : List Char}
    (h : ∀ c ∈ breaks, isTitleBreak c = true) (cs : List Char) :
    (piecesWhere isTitleBreak (breaks ++ cs)).flatMap capitalize =
      (piecesWhere isTitleBreak cs).flatMap capitalize := by
  induction breaks with
  | nil => rfl
  | cons c breaks ih =>
    rw [List.cons_append, piecesWhere, if_pos (h c List.mem_cons_self), List.flatMap_cons]
    exact ih fun d hd => h d (List.mem_cons_of_mem c hd)

theorem titleCase_of_breaks {s : String} (h : ∀ c ∈ s.toList, isTitleBreak c = true) :
    titleCase s = "" := by
  have hnil := flatMap_capitalize_append h []
  rw [List.append_nil, ← toList_titleCase] at hnil
  exact String.toList_inj.mp hnil

/-- The first character that breaks no word opens the title. -/
theorem exists_titleCase_eq {s : String} {c : Char}
    (h : s.toList.find? (fun d => !isTitleBreak d) = some c) :
    ∃ rest, (titleCase s).toList = upper c ++ rest := by
  obtain ⟨hc, breaks, cs, hs, hbreaks⟩ := List.find?_eq_some_iff_append.mp h
  rw [toList_titleCase, hs, flatMap_capitalize_append (by simpa using hbreaks), piecesWhere,
    if_neg (by simpa using hc)]
  cases piecesWhere isTitleBreak cs with
  | nil => exact ⟨[], by simp [capitalize]⟩
  | cons piece pieces => exact ⟨piece ++ pieces.flatMap capitalize, by simp [capitalize]⟩

theorem mem_titleCase_of_mem {s : String} {c : Char} (h : c ∈ s.toList)
    (hbreak : isTitleBreak c = false) (hupper : upper c = [c]) : c ∈ (titleCase s).toList := by
  obtain ⟨piece, hpiece, hmem⟩ := mem_piecesWhere_of_mem h hbreak
  rw [toList_titleCase]
  refine List.mem_flatMap.mpr ⟨piece, hpiece, ?_⟩
  cases piece with
  | nil => cases hmem
  | cons d ds =>
    rcases List.mem_cons.mp hmem with rfl | hmem
    · simp [capitalize, hupper]
    · exact List.mem_append_right _ hmem
theorem toNat_lt_of_isAlphanum {c : Char} (h : c.isAlphanum = true) : c.toNat < 128 :=
  toNat_lt_of_isWordChar (by simp [isWordChar, h])

theorem upper_of_isAlphanum {c : Char} (h : c.isAlphanum = true) : upper c = [c.toUpper] := by
  simp only [upper, toNat_lt_of_isAlphanum h, if_true]

theorem isAlphanum_toUpper {c : Char} (h : c.isAlphanum = true) : c.toUpper.isAlphanum = true :=
  forall_ascii (fun d => d.isAlphanum = true → d.toUpper.isAlphanum = true) (by decide +kernel) c
    (toNat_lt_of_isAlphanum h) h

/-- The title of a project starts with a letter and goes on with letters and digits. -/
theorem titleCase_of_isProjectName {name : String} (h : IsProjectName name) :
    ∃ c cs, (titleCase name).toList = c :: cs ∧ c.isAlpha = true ∧
      ∀ d ∈ cs, d.isAlphanum = true := by
  obtain ⟨c, rest, hname, hc⟩ := h.opens
  have hlt : c.toNat < 128 := toNat_lt_of_isWordChar (isWordChar_of_isAlpha hc)
  have hletter : isTitleBreak c = false ∧ c.toUpper.isAlpha = true :=
    forall_ascii (fun d => d.isAlpha = true → isTitleBreak d = false ∧ d.toUpper.isAlpha = true)
      (by decide +kernel) c hlt hc
  obtain ⟨cs, htitle⟩ := exists_titleCase_eq (s := name) (c := c) (by simp [hname, hletter.1])
  rw [upper, if_pos hlt] at htitle
  refine ⟨c.toUpper, cs, htitle, hletter.2, fun d hd => ?_⟩
  have hmem : d ∈ (titleCase name).toList := by
    rw [htitle]
    exact List.mem_cons_of_mem _ hd
  obtain ⟨e, he, hbreak, hd⟩ := mem_titleCase hmem
  have halnum : e.isAlphanum = true := by
    simp only [isTitleBreak, Bool.or_eq_false_iff, beq_eq_false_iff_ne] at hbreak
    exact (h.chars e he).resolve_right fun hmark => hmark.elim hbreak.1.2 hbreak.1.1
  rw [upper_of_isAlphanum halnum, List.mem_singleton] at hd
  rcases hd with rfl | rfl
  · exact halnum
  · exact isAlphanum_toUpper halnum
/-- A title with one of the endings of the traits is an identifier. -/
theorem isIdentifier_title_append {name ending : String} (h : IsProjectName name)
    (hending : ending ∈ ["Service", "Handler", "Middleware"]) :
    isIdentifier (titleCase name ++ ending) = true := by
  obtain ⟨c, cs, htitle, hc, hcs⟩ := titleCase_of_isProjectName h
  have hlist : (titleCase name ++ ending).toList = c :: (cs ++ ending.toList) := by
    rw [String.toList_append, htitle]
    rfl
  have hhead := (isHead_iff c).mp (Or.inl hc)
  have hplain : ∀ e ∈ ["Service", "Handler", "Middleware"], e.toList.all isWordChar = true := by
    decide +kernel
  apply isIdentifier_of_isWord
  · rw [hlist]
    refine (isWord_cons_iff _ _).mpr ⟨hhead.1, ?_, ?_⟩
    · intro d hd
      rcases List.mem_cons.mp hd with rfl | hd
      · exact hhead.2
      · rcases List.mem_append.mp hd with hd | hd
        · simp [isWordChar, hcs d hd]
        · exact List.all_eq_true.mp (hplain ending hending) d hd
    · intro heq
      rw [(List.cons.inj heq).1] at hc
      exact absurd hc (by decide)
  · -- No keyword has a capital behind its first letter.
    have hsmall : ∀ k ∈ keywords, (k.toList.tail.any Char.isUpper) = false := by decide +kernel
    have hcapital : ∀ e ∈ ["Service", "Handler", "Middleware"],
        e.toList.any Char.isUpper = true := by
      decide +kernel
    rw [isKeyword, List.contains_eq_mem, decide_eq_false_iff_not]
    intro hmem
    have htail := hsmall _ hmem
    rw [hlist, List.tail_cons, List.any_append, hcapital ending hending, Bool.or_true] at htail
    exact absurd htail (by simp)

end Scaffold.Naming
