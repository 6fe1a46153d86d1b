import Mathlib.Data.List.Forall2
import Scaffold.Source.Requirement

/-!
The code of a text: its lines without those that hold nothing but a comment. Documentation stands on
comment lines of its own, whatever its entries hold, so a source file has the same code and the same
requirements with its documentation as without.
-/

namespace Scaffold

namespace Text

/-- Whether the first characters of the line that are not blank open a comment. -/
def isCommentLine (line : String) : Bool := ['/', '/'].isPrefixOf (line.toList.dropWhile isBlank)

/-- The lines of a text, up to each line feed, without the comment lines. -/
def codeLines (s : String) : List String := (splitAt '\n' s).filter fun l => !isCommentLine l

/-- A line feed keeps the code on its sides apart. -/
theorem codeLines_append_newline (s t : String) :
    codeLines (s ++ "\n" ++ t) = codeLines s ++ codeLines t :=
  filter_splitAt_append rfl _ s t

theorem codeLines_of_isCommentLine {line : String} (hline : '\n' ∉ line.toList)
    (hcomment : isCommentLine line = true) : codeLines line = [] := by
  simp [codeLines, splitAt_of_not_mem hline, hcomment]

theorem subset_dropBlanksEnd (cs : List Char) : dropBlanksEnd cs ⊆ cs := by
  intro c hc
  have hmem := (List.dropWhile_sublist isBlank).subset (List.mem_reverse.mp hc)
  exact List.mem_reverse.mp hmem

/-- The text is empty or ends with a line feed. -/
def WholeLines (s : String) : Prop := s = "" ∨ ∃ t, s = t ++ "\n"

theorem wholeLines_of_getLast? (s t : String) (h : t.toList.getLast? = some '\n') :
    WholeLines (s ++ t) := by
  obtain ⟨cs, hcs⟩ := List.getLast?_eq_some_iff.mp h
  refine Or.inr ⟨s ++ String.ofList cs, ?_⟩
  rw [← String.toList_inj]
  simp [hcs]

/-- Texts of whole lines that have the same code, whatever follows them. -/
structure SameCode (s t : String) : Prop where
  left : WholeLines s
  right : WholeLines t
  code : ∀ rest, codeLines (s ++ rest) = codeLines (t ++ rest)

namespace SameCode

variable {s t u v : String}

theorem refl (h : WholeLines s) : SameCode s s := ⟨h, h, fun _ => rfl⟩

theorem symm (h : SameCode s t) : SameCode t s := ⟨h.right, h.left, fun rest => (h.code rest).symm⟩

theorem trans (h : SameCode s t) (h' : SameCode t u) : SameCode s u :=
  ⟨h.left, h'.right, fun rest => (h.code rest).trans (h'.code rest)⟩

theorem codeLines_eq (h : SameCode s t) : codeLines s = codeLines t := by
  simpa using h.code ""

end SameCode

theorem WholeLines.append {s t : String} (hs : WholeLines s) (ht : WholeLines t) :
    WholeLines (s ++ t) := by
  rcases ht with rfl | ⟨u, rfl⟩
  · simpa using hs
  · exact Or.inr ⟨s ++ u, (String.append_assoc ..).symm⟩

/-- Whole lines in front of two texts of the same code. -/
theorem codeLines_append_congr {s t u : String} (hs : WholeLines s)
    (h : codeLines t = codeLines u) : codeLines (s ++ t) = codeLines (s ++ u) := by
  rcases hs with rfl | ⟨r, rfl⟩
  · simpa using h
  · rw [codeLines_append_newline, codeLines_append_newline, h]

theorem SameCode.append {s t u v : String} (h : SameCode s t) (h' : SameCode u v) :
    SameCode (s ++ u) (t ++ v) where
  left := h.left.append h'.left
  right := h.right.append h'.right
  code rest := by
    rw [String.append_assoc, String.append_assoc, h.code]
    exact codeLines_append_congr h.right (h'.code rest)

end Text

namespace Source

open Text

theorem newline_not_mem_trimEnd {line : String} (h : '\n' ∉ line.toList) :
    '\n' ∉ (trimEnd line).toList := by
  rw [trimEnd, String.toList_ofList]
  exact fun hmem => h (subset_dropBlanksEnd _ hmem)

theorem dropWhile_isBlank_pad_append (level : ℕ) (cs : List Char) :
    ((pad level).toList ++ cs).dropWhile isBlank = cs.dropWhile isBlank := by
  have hblank : ∀ c ∈ (pad level).toList, isBlank c = true := by
    intro c hc
    rw [pad, String.toList_ofList] at hc
    rw [(List.mem_replicate.mp hc).2]
    decide
  rw [List.dropWhile_append_of_pos hblank]

/-- A line of a comment is no code. -/
theorem sameCode_commentLine (level : ℕ) {marker line : String}
    (hmarker : marker ∈ ["//", "///", "//!"]) (hline : '\n' ∉ line.toList) :
    SameCode (commentLine level marker line) "" where
  left := wholeLines_of_getLast? _ _ rfl
  right := Or.inl rfl
  code rest := by
    let shown : String := if (trimEnd line).isEmpty then "" else " " ++ trimEnd line
    have hshown : '\n' ∉ shown.toList := by
      have htrim := newline_not_mem_trimEnd hline
      by_cases h : (trimEnd line).isEmpty = true <;> simp [shown, h, htrim]
    have hmarked : ∀ m ∈ ["//", "///", "//!"],
        '\n' ∉ m.toList ∧ ∃ cs, m.toList = '/' :: '/' :: cs := by
      simp
    obtain ⟨hplain, cs, hcs⟩ := hmarked marker hmarker
    have hbody : '\n' ∉ (pad level ++ marker ++ shown).toList := by
      simp [pad, hplain, hshown]
    have hcomment : isCommentLine (pad level ++ marker ++ shown) = true := by
      have hslash : isBlank '/' = false := by decide
      simp [isCommentLine, dropWhile_isBlank_pad_append, hcs, hslash]
    change codeLines (pad level ++ marker ++ shown ++ "\n" ++ rest) = codeLines ("" ++ rest)
    rw [codeLines_append_newline, codeLines_of_isCommentLine hbody hcomment, String.empty_append,
      List.nil_append]

theorem newline_not_mem_of_mem_flatMap_splitAt (entries : List String) :
    ∀ line ∈ entries.flatMap (splitAt '\n'), '\n' ∉ line.toList := by
  intro line hline
  obtain ⟨entry, -, hpiece⟩ := List.mem_flatMap.mp hline
  obtain ⟨piece, hmem, rfl⟩ := List.mem_map.mp hpiece
  rw [String.toList_ofList]
  exact fun hc => absurd (not_sep_of_mem_piecesWhere hmem hc) (by simp)

theorem sameCode_commentLines (level : ℕ) {marker : String}
    (hmarker : marker ∈ ["//", "///", "//!"])
    (entries : List String) : SameCode (commentLines level marker entries) "" := by
  have hlines := newline_not_mem_of_mem_flatMap_splitAt entries
  unfold commentLines
  generalize entries.flatMap (splitAt '\n') = lines at hlines
  induction lines with
  | nil => exact .refl (Or.inl rfl)
  | cons line lines ih =>
    rw [List.map_cons, String.join_cons]
    have hfirst := sameCode_commentLine level hmarker (hlines line List.mem_cons_self)
    exact hfirst.append (ih fun l hl => hlines l (List.mem_cons_of_mem line hl))

theorem sameCode_docLines (level : ℕ) (doc : List String) : SameCode (docLines level doc) "" :=
  sameCode_commentLines level (by simp) doc

def Signature.undocumented (s : Signature) : Signature := { s with doc := [] }

def Function.undocumented (f : Function) : Function :=
  { f with signature := f.signature.undocumented }

def Field.undocumented (f : Field) : Field := { f with doc := [] }

mutual

/-- The item without its documentation and that of its parts. -/
def Item.undocumented : Item → Item
  | .submodule _ isPublic name none => .submodule [] isPublic name none
  | .submodule _ isPublic name (some items) =>
    .submodule [] isPublic name (some (undocumentedItems items))
  | .struct _ attrs isPublic name generics fields =>
    .struct [] attrs isPublic name generics (fields.map (List.map Field.undocumented))
  | .typeAlias _ isPublic name generics ty => .typeAlias [] isPublic name generics ty
  | .const _ isPublic name ty value => .const [] isPublic name ty value
  | .trait _ isPublic name supertraits methods =>
    .trait [] isPublic name supertraits (methods.map Signature.undocumented)
  | .impl _ generics traitTy selfTy methods =>
    .impl [] generics traitTy selfTy (methods.map Function.undocumented)
  | .function f => .function f.undocumented

def undocumentedItems : List Item → List Item
  | [] => []
  | i :: is => i.undocumented :: undocumentedItems is

end

theorem undocumentedItems_eq (items : List Item) :
    undocumentedItems items = items.map Item.undocumented := by
  induction items with
  | nil => rfl
  | cons i is ih => rw [undocumentedItems, ih, List.map_cons]

mutual

/-- Documentation requires nothing. -/
theorem Item.requirements_undocumented (speak : Speaker) :
    (i : Item) → i.undocumented.requirements speak = i.requirements speak
  | .submodule _ _ _ none => rfl
  | .submodule _ _ _ (some items) => by
    simp only [Item.undocumented, Item.requirements, itemRequirements_undocumented speak items]
  | .struct _ _ _ _ _ none => rfl
  | .struct _ _ _ _ _ (some fields) => by
    simp only [Item.undocumented, Item.requirements, Option.map_some, List.map_map,
      List.flatMap_map]
    rfl
  | .typeAlias _ _ _ _ _ => rfl
  | .const _ _ _ _ _ => rfl
  | .trait _ _ _ _ methods => by
    simp only [Item.undocumented, Item.requirements, List.map_map, List.flatMap_map]
    rfl
  | .impl _ _ _ _ methods => by
    simp only [Item.undocumented, Item.requirements, List.map_map, List.flatMap_map]
    rfl
  | .function f => rfl

theorem itemRequirements_undocumented (speak : Speaker) :
    (items : List Item) →
      itemRequirements speak (undocumentedItems items) = itemRequirements speak items
  | [] => rfl
  | i :: is => by
    rw [undocumentedItems, itemRequirements, itemRequirements,
      Item.requirements_undocumented speak i, itemRequirements_undocumented speak is]

end

theorem sameCode_join {ps qs : List String} (h : List.Forall₂ SameCode ps qs) :
    SameCode (String.join ps) (String.join qs) := by
  induction h with
  | nil => exact .refl (Or.inl rfl)
  | cons hfirst _ ih =>
    rw [String.join_cons, String.join_cons]
    exact hfirst.append ih

theorem sameCode_spaced {ps qs : List String} (h : List.Forall₂ SameCode ps qs) :
    SameCode (spaced ps) (spaced qs) := by
  unfold spaced
  induction h with
  | nil => exact .refl (Or.inl rfl)
  | cons hfirst hrest ih =>
    cases hrest with
    | nil => simpa [String.intercalate_singleton] using hfirst
    | cons _ _ =>
      rw [String.intercalate_cons_cons, String.intercalate_cons_cons]
      exact (hfirst.append (.refl (Or.inr ⟨"", rfl⟩))).append ih

/-- Members of the same code between braces. -/
theorem sameCode_braced (level : ℕ) (head : String) {ps qs : List String}
    (h : List.Forall₂ SameCode ps qs) : SameCode (braced level head ps) (braced level head qs) := by
  have hmembers := sameCode_spaced h
  unfold braced
  cases h with
  | nil => exact .refl (wholeLines_of_getLast? head _ rfl)
  | cons _ _ =>
    have hopen : WholeLines (head ++ " \x7b\n") := wholeLines_of_getLast? head _ rfl
    have hclose : WholeLines (pad level ++ "\x7d\n") := wholeLines_of_getLast? (pad level) _ rfl
    have hinside := ((SameCode.refl hopen).append hmembers).append (.refl hclose)
    simpa [String.append_assoc] using hinside

/-- Documentation in front of a text adds no code. -/
theorem sameCode_documented (level : ℕ) (doc : List String) {s t : String} (h : SameCode s t) :
    SameCode (docLines level doc ++ s) t := by
  simpa using (sameCode_docLines level doc).append h

@[simp] theorem docLines_nil (level : ℕ) : docLines level [] = "" := rfl

theorem sameCode_field (speak : Speaker) (level : ℕ) (f : Field) :
    SameCode (f.layout speak level) (f.undocumented.layout speak level) := by
  have hsplit : f.layout speak level =
      docLines level f.doc ++ f.undocumented.layout speak level := by
    simp [Field.layout, Field.undocumented, String.append_assoc]
  rw [hsplit]
  exact sameCode_documented level f.doc (.refl (wholeLines_of_getLast? _ _ rfl))

/-- A method that a trait demands. -/
theorem sameCode_signature (speak : Speaker) (level : ℕ) (s : Signature) :
    SameCode (s.preamble level ++ s.head speak level ++ ";\n")
      (s.undocumented.preamble level ++ s.undocumented.head speak level ++ ";\n") := by
  have hsplit : s.preamble level ++ s.head speak level ++ ";\n" =
      docLines level s.doc ++
        (s.undocumented.preamble level ++ s.undocumented.head speak level ++ ";\n") := by
    simp only [Signature.preamble, Signature.undocumented, docLines_nil, String.empty_append,
      String.append_assoc]
    rfl
  rw [hsplit]
  exact sameCode_documented level s.doc (.refl (wholeLines_of_getLast? _ _ rfl))

theorem sameCode_function (speak : Speaker) (level : ℕ) (f : Function) :
    SameCode (f.layout speak level) (f.undocumented.layout speak level) := by
  have hsplit : f.layout speak level =
      docLines level f.signature.doc ++ f.undocumented.layout speak level := by
    simp only [Function.layout, Function.undocumented, Signature.preamble,
      Signature.undocumented, docLines_nil, String.empty_append, String.append_assoc]
    rfl
  rw [hsplit]
  exact sameCode_documented level f.signature.doc (.refl (wholeLines_of_getLast? _ _ rfl))

/-- Parts that are laid out with the same code each. -/
theorem forall₂_sameCode_map {α : Type} (layout : α → String) (undocumented : α → α)
    (h : ∀ x, SameCode (layout x) (layout (undocumented x))) (xs : List α) :
    List.Forall₂ SameCode (xs.map layout) ((xs.map undocumented).map layout) := by
  rw [List.map_map, List.forall₂_map_left_iff, List.forall₂_map_right_iff, List.forall₂_same]
  exact fun x _ => h x

mutual

/-- An item has the same code without its documentation. -/
theorem Item.sameCode_undocumented (speak : Speaker) (level : ℕ) :
    (i : Item) → SameCode (i.layout speak level) (i.undocumented.layout speak level)
  | .submodule doc isPublic name none => by
    have hitem := sameCode_documented level doc (.refl (wholeLines_of_getLast?
      (pad level ++ visibility isPublic ++ "mod " ++ name) ";\n" rfl))
    simpa [Item.layout, Item.undocumented, String.append_assoc] using hitem
  | .submodule doc isPublic name (some items) => by
    have hopen := SameCode.refl (wholeLines_of_getLast?
      (pad level ++ visibility isPublic ++ "mod " ++ name) " \x7b\n" rfl)
    have hclose := SameCode.refl (wholeLines_of_getLast? (pad level) "\x7d\n" rfl)
    have hitems := sameCode_itemTexts speak (level + 1) items
    have hitem := sameCode_documented level doc ((hopen.append hitems).append hclose)
    simpa [Item.layout, Item.undocumented, String.append_assoc] using hitem
  | .struct doc attrs isPublic name generics none => by
    have hitem := sameCode_documented level doc (.refl (wholeLines_of_getLast?
      (attrLines level attrs ++ pad level ++ visibility isPublic ++ "struct " ++ name ++
        genericsText speak generics) ";\n" rfl))
    simpa [Item.layout, Item.undocumented, String.append_assoc] using hitem
  | .struct doc attrs isPublic name generics (some fields) => by
    have hopen := SameCode.refl (wholeLines_of_getLast?
      (attrLines level attrs ++ pad level ++ visibility isPublic ++ "struct " ++ name ++
        genericsText speak generics) " \x7b\n" rfl)
    have hclose := SameCode.refl (wholeLines_of_getLast? (pad level) "\x7d\n" rfl)
    have hfields := sameCode_join (forall₂_sameCode_map (Field.layout speak (level + 1))
      Field.undocumented (sameCode_field speak (level + 1)) fields)
    have hitem := sameCode_documented level doc ((hopen.append hfields).append hclose)
    simpa [Item.layout, Item.undocumented, String.append_assoc] using hitem
  | .typeAlias doc isPublic name generics ty => by
    have hitem := sameCode_documented level doc (.refl (wholeLines_of_getLast?
      (pad level ++ visibility isPublic ++ "type " ++ name ++ genericsText speak generics ++
        " = " ++ ty.text speak) ";\n" rfl))
    simpa [Item.layout, Item.undocumented, String.append_assoc] using hitem
  | .const doc isPublic name ty value => by
    have hitem := sameCode_documented level doc (.refl (wholeLines_of_getLast?
      (pad level ++ visibility isPublic ++ "const " ++ name ++ ": " ++ ty.text speak ++ " = " ++
        value.layout speak level) ";\n" rfl))
    simpa [Item.layout, Item.undocumented, String.append_assoc] using hitem
  | .trait doc isPublic name supertraits methods => by
    have hmethods := forall₂_sameCode_map
      (fun s : Signature => s.preamble (level + 1) ++ s.head speak (level + 1) ++ ";\n")
      Signature.undocumented (sameCode_signature speak (level + 1)) methods
    simp only [Item.layout, Item.undocumented, docLines_nil, String.empty_append]
    exact sameCode_documented level doc (sameCode_braced level _ hmethods)
  | .impl doc generics traitTy selfTy methods => by
    have hmethods := forall₂_sameCode_map (Function.layout speak (level + 1))
      Function.undocumented (sameCode_function speak (level + 1)) methods
    simp only [Item.layout, Item.undocumented, docLines_nil, String.empty_append]
    exact sameCode_documented level doc (sameCode_braced level _ hmethods)
  | .function f => sameCode_function speak level f

theorem sameCode_itemTexts (speak : Speaker) (level : ℕ) :
    (items : List Item) →
      SameCode (itemTexts speak level items) (itemTexts speak level (undocumentedItems items))
  | [] => .refl (Or.inl rfl)
  | i :: is => by
    rw [undocumentedItems, itemTexts, itemTexts]
    exact (Item.sameCode_undocumented speak level i).append (sameCode_itemTexts speak level is)

end

theorem piecesWhere_ne_nil (sep : Char → Bool) (cs : List Char) : piecesWhere sep cs ≠ [] := by
  cases cs with
  | nil => simp [piecesWhere]
  | cons c cs =>
    rw [piecesWhere]
    split
    · simp
    · split <;> simp

theorem commentLines_ne_empty (level : ℕ) (marker : String) {entries : List String}
    (h : entries ≠ []) : commentLines level marker entries ≠ "" := by
  obtain ⟨entry, others, rfl⟩ := List.exists_cons_of_ne_nil h
  obtain ⟨piece, pieces, hpieces⟩ :=
    List.exists_cons_of_ne_nil (piecesWhere_ne_nil (· == '\n') entry.toList)
  have hlines : (entry :: others).flatMap (splitAt '\n') =
      String.ofList piece :: (pieces.map String.ofList ++ others.flatMap (splitAt '\n')) := by
    simp [splitAt, splitWhere, hpieces]
  rw [commentLines, hlines, List.map_cons, String.join_cons]
  intro hempty
  have hlist := congrArg String.toList hempty
  simp [commentLine] at hlist

namespace File

theorem wholeLines_leading (text : String) : WholeLines (leading text) := by
  unfold leading
  split
  · exact Or.inl rfl
  · exact wholeLines_of_getLast? _ _ rfl

/-- The documentation of a file leaves an empty line. -/
theorem sameCode_leading {doc : List String} (h : doc ≠ []) :
    SameCode (leading (commentLines 0 "//!" doc)) "\n" := by
  have htext : (commentLines 0 "//!" doc).isEmpty = false := by
    simpa using commentLines_ne_empty 0 "//!" h
  have hline : SameCode "\n" "\n" := .refl (Or.inr ⟨"", rfl⟩)
  simpa [leading, htext] using (sameCode_commentLines 0 (by simp) doc).append hline

/-- Documented files that differ in their documentation alone. -/
structure Alike (f g : File) : Prop where
  imports : f.imports = g.imports
  items : f.items.map Item.undocumented = g.items.map Item.undocumented
  left_documented : f.doc ≠ []
  right_documented : g.doc ≠ []

variable {f g : File}

theorem Alike.speaker_eq (h : f.Alike g) : f.speaker = g.speaker := by
  unfold speaker
  rw [h.imports]

theorem Alike.defect?_eq (h : f.Alike g) : f.defect? = g.defect? := by
  have hitems : itemRequirements f.speaker f.items = itemRequirements f.speaker g.items := by
    rw [← itemRequirements_undocumented _ f.items, undocumentedItems_eq, h.items,
      ← undocumentedItems_eq, itemRequirements_undocumented]
  simp only [defect?, requirements, hitems, ← h.speaker_eq, ← h.imports]

theorem Alike.sameCode_items (h : f.Alike g) :
    SameCode (spaced (f.items.map (Item.layout f.speaker 0)))
      (spaced (g.items.map (Item.layout f.speaker 0))) := by
  have hcode (items : List Item) : SameCode (spaced (items.map (Item.layout f.speaker 0)))
      (spaced ((items.map Item.undocumented).map (Item.layout f.speaker 0))) :=
    sameCode_spaced (forall₂_sameCode_map _ _ (Item.sameCode_undocumented f.speaker 0) items)
  have hleft := hcode f.items
  rw [h.items] at hleft
  exact hleft.trans (hcode g.items).symm

theorem Alike.sameCode_layout (h : f.Alike g) : SameCode f.layout g.layout := by
  unfold layout
  rw [← h.speaker_eq, ← h.imports]
  have hdoc := (sameCode_leading h.left_documented).trans (sameCode_leading h.right_documented).symm
  exact (hdoc.append (.refl (wholeLines_leading _))).append h.sameCode_items

/-- Such files have a text both or neither, for the same reason, and then the same code. -/
theorem Alike.render_eq (h : f.Alike g) : f.render.map codeLines = g.render.map codeLines := by
  unfold render
  rw [← h.defect?_eq]
  cases f.defect? with
  | some e => rfl
  | none => exact congrArg Except.ok h.sameCode_layout.codeLines_eq

end File

end Source

end Scaffold
