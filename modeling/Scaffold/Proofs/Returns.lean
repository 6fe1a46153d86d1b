import Mathlib.Data.List.TakeWhile
import Scaffold.Proofs.CodeLines
import Scaffold.Proofs.Identifiers

/-!
Carriage returns in documentation. Blanks go from the ends of a text and of its lines, and a return
is a blank, so the returns that stay are those with something behind them on their line. Comment
lines show just these.
-/

namespace Scaffold.Text

/-- Whether anything on the rest of the line is not blank. -/
def showsMore : List Char → Bool
  | [] => false
  | c :: cs => c != '\n' && (!isBlank c || showsMore cs)

/-- Whether a carriage return has anything behind it on its line that is not blank. -/
def returnsWithin : List Char → Bool
  | [] => false
  | c :: cs => c == '\r' && showsMore cs || returnsWithin cs

/-- Whether a carriage return stands within a text, blanks in front of the text left aside. -/
def holdsReturn (s : String) : Bool := returnsWithin (s.toList.dropWhile isBlank)

/-- The text holds no carriage return. -/
def Unbroken (s : String) : Prop := '\r' ∉ s.toList

instance (s : String) : Decidable (Unbroken s) := inferInstanceAs (Decidable ('\r' ∉ s.toList))

section

variable {s t : String} {parts : List String}

/-- A literal is its characters, and does not have to be decoded for this. -/
theorem unbroken_ofList {cs : List Char} (h : cs.all (· != '\r') = true) :
    Unbroken (String.ofList cs) := by
  rw [Unbroken, String.toList_ofList]
  exact fun hmem => absurd (List.all_eq_true.mp h _ hmem) (by decide)

@[simp] theorem unbroken_append : Unbroken (s ++ t) ↔ Unbroken s ∧ Unbroken t := by
  simp [Unbroken]

theorem unbroken_intercalate {sep : String} (hsep : Unbroken sep)
    (h : ∀ part ∈ parts, Unbroken part) : Unbroken (String.intercalate sep parts) := by
  induction parts with
  | nil => exact List.not_mem_nil
  | cons part parts ih =>
    obtain ⟨hpart, hparts⟩ := List.forall_mem_cons.mp h
    cases parts with
    | nil => rwa [String.intercalate_singleton]
    | cons other parts =>
      rw [String.intercalate_cons_cons]
      simp only [unbroken_append]
      exact ⟨⟨hpart, hsep⟩, ih hparts⟩

end

/-- Whether one of the texts has a return within. -/
def AnyReturn (entries : List String) : Prop :=
  ∃ entry ∈ entries, returnsWithin entry.toList = true

section

variable {entries entries' : List String}

@[simp] theorem anyReturn_nil : AnyReturn [] ↔ False := by simp [AnyReturn]

@[simp] theorem anyReturn_cons {entry : String} :
    AnyReturn (entry :: entries) ↔ returnsWithin entry.toList = true ∨ AnyReturn entries := by
  simp [AnyReturn]

@[simp] theorem anyReturn_append :
    AnyReturn (entries ++ entries') ↔ AnyReturn entries ∨ AnyReturn entries' := by
  simp only [AnyReturn, List.mem_append, or_and_right, exists_or]

@[simp] theorem anyReturn_flatMap {α : Type} {xs : List α} {f : α → List String} :
    AnyReturn (xs.flatMap f) ↔ ∃ x ∈ xs, AnyReturn (f x) := by
  simp only [AnyReturn, List.mem_flatMap]
  constructor
  · rintro ⟨entry, ⟨x, hx, hentry⟩, hreturn⟩
    exact ⟨x, hx, entry, hentry, hreturn⟩
  · rintro ⟨x, hx, entry, hentry, hreturn⟩
    exact ⟨entry, ⟨x, hx, hentry⟩, hreturn⟩

end

variable {cs ds : List Char} {c : Char}

theorem returnsWithin_cons_of_ne (hc : c ≠ '\r') (cs : List Char) :
    returnsWithin (c :: cs) = returnsWithin cs := by
  simp [returnsWithin, hc]

theorem returnsWithin_append_of_not_mem (h : '\r' ∉ cs) (ds : List Char) :
    returnsWithin (cs ++ ds) = returnsWithin ds := by
  induction cs with
  | nil => rfl
  | cons c cs ih =>
    obtain ⟨hc, hcs⟩ := not_or.mp (mt List.mem_cons.mpr h)
    rw [List.cons_append, returnsWithin_cons_of_ne (Ne.symm hc), ih hcs]

theorem returnsWithin_of_not_mem (h : '\r' ∉ cs) : returnsWithin cs = false := by
  have happend := returnsWithin_append_of_not_mem h []
  rwa [List.append_nil] at happend

theorem ne_of_not_isBlank {d : Char} (hc : isBlank c = false) (hd : isBlank d = true) : c ≠ d := by
  rintro rfl
  rw [hc] at hd
  cases hd

/-- What stands behind a character that is not blank shows no more than that. -/
theorem showsMore_append_cons (hc : isBlank c = false) (cs ds : List Char) :
    showsMore (cs ++ c :: ds) = showsMore (cs ++ [c]) := by
  induction cs with
  | nil => simp [showsMore, hc]
  | cons d cs ih => rw [List.cons_append, List.cons_append, showsMore, showsMore, ih]

/-- A character that is not blank is shown behind all returns of its line in front of it. -/
theorem returnsWithin_append_cons (hc : isBlank c = false) (cs ds : List Char) :
    returnsWithin (cs ++ c :: ds) = (returnsWithin (cs ++ [c]) || returnsWithin ds) := by
  have hreturn : c ≠ '\r' := ne_of_not_isBlank hc rfl
  induction cs with
  | nil => simp [returnsWithin_cons_of_ne hreturn, returnsWithin]
  | cons d cs ih =>
    simp only [List.cons_append, returnsWithin, ih, showsMore_append_cons hc cs ds, Bool.or_assoc]

theorem dropBlanksEnd_cons (c : Char) (cs : List Char) :
    dropBlanksEnd (c :: cs) =
      if (c :: cs).all isBlank then [] else c :: dropBlanksEnd cs := by
  have hnil : (cs.reverse.dropWhile isBlank).isEmpty = cs.all isBlank := by
    rw [Bool.eq_iff_iff]
    simp [List.dropWhile_eq_nil_iff]
  have hrev : (c :: cs).reverse = cs.reverse ++ [c] := List.reverse_cons
  unfold dropBlanksEnd
  rw [hrev, List.dropWhile_append, hnil]
  by_cases hall : cs.all isBlank = true
  · have hempty : cs.reverse.dropWhile isBlank = [] := by
      rw [← List.isEmpty_iff, hnil, hall]
    by_cases hc : isBlank c = true <;> simp [hall, hc, hempty]
  · simp [hall]

theorem showsMore_of_all_isBlank (h : cs.all isBlank = true) : showsMore cs = false := by
  induction cs with
  | nil => rfl
  | cons c cs ih =>
    simp only [List.all_cons, Bool.and_eq_true] at h
    simp [showsMore, h.1, ih h.2]

theorem returnsWithin_of_all_isBlank (h : cs.all isBlank = true) : returnsWithin cs = false := by
  induction cs with
  | nil => rfl
  | cons c cs ih =>
    simp only [List.all_cons, Bool.and_eq_true] at h
    simp [returnsWithin, showsMore_of_all_isBlank h.2, ih h.2]

theorem showsMore_dropBlanksEnd (cs : List Char) : showsMore (dropBlanksEnd cs) = showsMore cs := by
  induction cs with
  | nil => rfl
  | cons c cs ih =>
    rw [dropBlanksEnd_cons]
    split
    · next hall => rw [showsMore_of_all_isBlank hall]; rfl
    · rw [showsMore, showsMore, ih]

theorem returnsWithin_dropBlanksEnd (cs : List Char) :
    returnsWithin (dropBlanksEnd cs) = returnsWithin cs := by
  induction cs with
  | nil => rfl
  | cons c cs ih =>
    rw [dropBlanksEnd_cons]
    split
    · next hall => rw [returnsWithin_of_all_isBlank hall]; rfl
    · rw [returnsWithin, returnsWithin, ih, showsMore_dropBlanksEnd]

theorem all_isBlank_of_showsMore (hline : '\n' ∉ cs) (h : showsMore cs = false) :
    cs.all isBlank = true := by
  induction cs with
  | nil => rfl
  | cons c cs ih =>
    obtain ⟨hc, hcs⟩ := not_or.mp (mt List.mem_cons.mpr hline)
    simp only [showsMore, Bool.and_eq_false_iff, Bool.or_eq_false_iff, bne_eq_false_iff_eq,
      Bool.not_eq_false'] at h
    obtain ⟨hblank, hrest⟩ := h.resolve_left (Ne.symm hc)
    simp [hblank, ih hcs hrest]

/-- On a line, the returns that stay are those with something behind them. -/
theorem return_mem_dropBlanksEnd_iff (hline : '\n' ∉ cs) :
    '\r' ∈ dropBlanksEnd cs ↔ returnsWithin cs = true := by
  induction cs with
  | nil => simp [dropBlanksEnd, returnsWithin]
  | cons c cs ih =>
    obtain ⟨-, hcs⟩ := not_or.mp (mt List.mem_cons.mpr hline)
    rw [dropBlanksEnd_cons]
    split
    · next hall => simp [returnsWithin_of_all_isBlank hall]
    · next hall =>
      simp only [List.mem_cons, ih hcs, returnsWithin, Bool.or_eq_true, Bool.and_eq_true,
        beq_iff_eq, eq_comm (a := '\r')]
      refine or_congr_left ⟨?_, And.left⟩
      rintro rfl
      refine ⟨rfl, by_contra fun hmore => hall ?_⟩
      have hblank := all_isBlank_of_showsMore hcs (Bool.eq_false_iff.mpr hmore)
      rw [List.all_cons, hblank]
      rfl

/-- A text has a return within it just where one of its lines has. -/
theorem returnsWithin_iff_exists_piece (cs : List Char) :
    returnsWithin cs = true ↔
      ∃ piece ∈ piecesWhere (· == '\n') cs, returnsWithin piece = true := by
  -- the first piece shows what the text shows up to its first line end
  have hfirst (cs : List Char) : ∃ piece rest, piecesWhere (· == '\n') cs = piece :: rest ∧
      showsMore piece = showsMore cs := by
    induction cs with
    | nil => exact ⟨[], [], rfl, rfl⟩
    | cons c cs ih =>
      obtain ⟨piece, rest, hpieces, hshows⟩ := ih
      by_cases hc : c = '\n'
      · exact ⟨[], _, by simp [piecesWhere, hc]; rfl, by simp [showsMore, hc]⟩
      · exact ⟨c :: piece, rest, by simp [piecesWhere, hc, hpieces], by simp [showsMore, hshows]⟩
  induction cs with
  | nil => simp [piecesWhere, returnsWithin]
  | cons c cs ih =>
    obtain ⟨piece, rest, hpieces, hshows⟩ := hfirst cs
    rw [hpieces] at ih
    by_cases hc : c = '\n'
    · simp [piecesWhere, hc, hpieces, returnsWithin, ih]
    · simp [piecesWhere, hc, hpieces, returnsWithin, ih, hshows, or_assoc]

/-- Whether the first characters of the line that are not blank open a documentation comment. -/
def isDocComment (line : String) : Bool :=
  match line.toList.dropWhile isBlank with
  | '/' :: '/' :: '!' :: _ => true
  | '/' :: '/' :: '/' :: rest => rest.head? != some '/'
  | _ => false

/-- The lines of a text, up to each line feed, that are documentation comments. -/
def docComments (s : String) : List String := (splitAt '\n' s).filter isDocComment

/-- A documentation comment of the text holds a carriage return. -/
def ShowsReturn (s : String) : Prop := ∃ line ∈ docComments s, '\r' ∈ line.toList

variable {s t : String}

theorem docComments_append_newline (s t : String) :
    docComments (s ++ "\n" ++ t) = docComments s ++ docComments t :=
  filter_splitAt_append rfl _ s t

@[simp] theorem docComments_empty : docComments "" = [] := by
  simp [docComments, splitAt, splitWhere, piecesWhere, isDocComment]

theorem docComments_newline (s : String) : docComments (s ++ "\n") = docComments s := by
  simpa using docComments_append_newline s ""

theorem docComments_append (hs : WholeLines s) (t : String) :
    docComments (s ++ t) = docComments s ++ docComments t := by
  rcases hs with rfl | ⟨r, rfl⟩
  · simp
  · rw [docComments_append_newline, docComments_newline]

theorem docComments_of_oneLine (h : '\n' ∉ s.toList) :
    docComments s = [s].filter isDocComment := by
  rw [docComments, splitAt_of_not_mem h]

theorem showsReturn_append (hs : WholeLines s) :
    ShowsReturn (s ++ t) ↔ ShowsReturn s ∨ ShowsReturn t := by
  simp only [ShowsReturn, docComments_append hs, List.mem_append, or_and_right, exists_or]

theorem return_mem_of_showsReturn (h : ShowsReturn s) : '\r' ∈ s.toList := by
  obtain ⟨line, hline, hreturn⟩ := h
  obtain ⟨piece, hpiece, rfl⟩ := List.mem_map.mp (List.mem_of_mem_filter hline)
  rw [String.toList_ofList] at hreturn
  exact Naming.mem_of_mem_piecesWhere hpiece hreturn

end Scaffold.Text

namespace Scaffold.Source

open Text

/-- The text stands on lines of its own, and its documentation comments hold a carriage return just
where one of the entries has a return within. -/
structure Documents (doc : List String) (s : String) : Prop where
  whole : WholeLines s
  showsReturn_iff : ShowsReturn s ↔ AnyReturn doc

namespace Documents

variable {doc doc' : List String} {s t : String}

/-- Code documents nothing. -/
theorem code (hs : WholeLines s) (hreturn : '\r' ∉ s.toList) : Documents [] s where
  whole := hs
  showsReturn_iff := by simpa using mt return_mem_of_showsReturn hreturn

theorem append (h : Documents doc s) (h' : Documents doc' t) :
    Documents (doc ++ doc') (s ++ t) where
  whole := h.whole.append h'.whole
  showsReturn_iff := by
    rw [showsReturn_append h.whole, h.showsReturn_iff, h'.showsReturn_iff, anyReturn_append]

end Documents

/-- What stands on the line of a comment behind its indentation. -/
def commentBody (marker line : String) : String :=
  marker ++ if (trimEnd line).isEmpty then "" else " " ++ trimEnd line

/-- Behind its slashes, a comment shows the characters that are left without the blanks at its
end. -/
theorem mem_commentBody_iff {marker : String} (hmarker : marker ∈ ["//", "///", "//!"])
    (line : String) {c : Char} (hc : c ∉ [' ', '/', '!']) :
    c ∈ (commentBody marker line).toList ↔ c ∈ (trimEnd line).toList := by
  simp only [List.mem_cons, List.not_mem_nil, or_false, not_or] at hmarker hc
  rcases hmarker with rfl | rfl | rfl <;> by_cases h : trimEnd line = "" <;>
    simp [commentBody, h, hc]

/-- A comment documents unless its marker is that of remarks. -/
theorem isDocComment_commentBody (level : ℕ) {marker : String}
    (hmarker : marker ∈ ["//", "///", "//!"]) (line : String) :
    isDocComment (pad level ++ commentBody marker line) = (marker != "//") := by
  have hslash : isBlank '/' = false := by decide
  have hstart := dropWhile_isBlank_pad_append level (commentBody marker line).toList
  simp only [List.mem_cons, List.not_mem_nil, or_false] at hmarker
  rw [isDocComment, String.toList_append, hstart]
  rcases hmarker with rfl | rfl | rfl <;> by_cases h : trimEnd line = "" <;>
    simp [commentBody, h, hslash]

theorem docComments_commentLine (level : ℕ) {marker line : String}
    (hmarker : marker ∈ ["//", "///", "//!"]) (hline : '\n' ∉ line.toList) :
    docComments (commentLine level marker line) =
      if marker != "//" then [pad level ++ commentBody marker line] else [] := by
  have hnewline : '\n' ∉ (pad level ++ commentBody marker line).toList := by
    simp [mem_commentBody_iff hmarker line (c := '\n') (by decide),
      newline_not_mem_trimEnd hline, pad]
  have htext : commentLine level marker line = pad level ++ commentBody marker line ++ "\n" := by
    simp only [commentLine, commentBody, String.append_assoc]
  rw [htext, docComments_newline, docComments_of_oneLine hnewline, List.filter_singleton,
    isDocComment_commentBody level hmarker, Bool.cond_eq_ite]

theorem documents_join {α : Type} {xs : List α} {doc : α → List String} {text : α → String}
    (h : ∀ x ∈ xs, Documents (doc x) (text x)) :
    Documents (xs.flatMap doc) (String.join (xs.map text)) := by
  induction xs with
  | nil => exact .code (.inl rfl) List.not_mem_nil
  | cons x xs ih =>
    obtain ⟨hx, hxs⟩ := List.forall_mem_cons.mp h
    rw [List.flatMap_cons, List.map_cons, String.join_cons]
    exact hx.append (ih hxs)

/-- Remarks document nothing, whatever returns they hold. -/
theorem documents_remarks (level : ℕ) (entries : List String) :
    Documents [] (commentLines level "//" entries) := by
  have hmember : "//" ∈ ["//", "///", "//!"] := List.mem_cons_self
  have hlines := @documents_join String (entries.flatMap (splitAt '\n')) (fun _ => [])
    (commentLine level "//") fun line hline => by
      refine ⟨wholeLines_of_getLast? _ _ rfl, ?_⟩
      have hplain := newline_not_mem_of_mem_flatMap_splitAt entries line hline
      simp [ShowsReturn, docComments_commentLine level hmember hplain]
  rwa [List.flatMap_eq_nil_iff.mpr fun _ _ => rfl] at hlines

/-- Lines of documentation show the returns within their entries. -/
theorem documents_commentLines (level : ℕ) {marker : String} (hmarker : marker ∈ ["///", "//!"])
    (entries : List String) : Documents entries (commentLines level marker entries) := by
  have hmember : marker ∈ ["//", "///", "//!"] := List.mem_cons_of_mem _ hmarker
  have hdoc : (marker != "//") = true := by
    rcases List.mem_pair.mp hmarker with rfl | rfl <;> decide
  have hlines : Documents (entries.flatMap (splitAt '\n')) (commentLines level marker entries) := by
    have hjoin := @documents_join String (entries.flatMap (splitAt '\n')) (fun line => [line])
      (commentLine level marker) fun line hline => by
        refine ⟨wholeLines_of_getLast? _ _ rfl, ?_⟩
        have hplain := newline_not_mem_of_mem_flatMap_splitAt entries line hline
        have hreturn := return_mem_dropBlanksEnd_iff hplain
        have hmem := mem_commentBody_iff hmember line (c := '\r') (by decide)
        rw [trimEnd, String.toList_ofList] at hmem
        simp [ShowsReturn, docComments_commentLine level hmember hplain, hdoc, hmem, hreturn, pad]
    rwa [List.flatMap_singleton'] at hjoin
  refine ⟨hlines.whole, hlines.showsReturn_iff.trans ?_⟩
  rw [anyReturn_flatMap]
  refine exists_congr fun entry => and_congr_right fun _ => ?_
  rw [returnsWithin_iff_exists_piece]
  simp [AnyReturn, splitAt, splitWhere]

end Scaffold.Source
