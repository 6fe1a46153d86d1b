import Scaffold.Proofs.FileLayouts

/-!
The literals of a rendered file are those of its tree, in the order of the tree. Types, names,
comments and documentation show none, whatever they hold, and no literal ends before its closing
quote or takes in what stands behind it.
-/

namespace Scaffold.Source

open Naming Scan

theorem isPlain_of_inSegment {c : Char} (h : InSegment c) : isPlain c = true :=
  forall_ascii (fun d => InSegment d → isPlain d = true) (by decide +kernel) c h.lt h

/-- A reader of code at the first stage finds just these literals in the text and is at the other
stage behind it. -/
def Shows (s t : Stage) (ls : List Literal) (text : String) : Prop :=
  ∀ (found : List Literal) (joined : Bool), (s.isFree = true → joined = false) →
    ∃ joined', run ⟨found, .code joined⟩ text = some ⟨found ++ ls, .code joined'⟩ ∧
      (t.isFree = true → joined' = false)

namespace Shows

variable {s s' t t' u : Stage} {ls ms : List Literal} {a b : String}

theorem empty : Shows s s [] "" :=
  fun _ joined hjoined => ⟨joined, by rw [List.append_nil]; rfl, hjoined⟩

theorem append (ha : Shows s t ls a) (hb : Shows t u ms b) : Shows s u (ls ++ ms) (a ++ b) := by
  intro found joined hjoined
  obtain ⟨joined', hrun, hfree⟩ := ha found joined hjoined
  obtain ⟨joined'', hrun', hfree'⟩ := hb (found ++ ls) joined' hfree
  refine ⟨joined'', ?_, hfree'⟩
  rw [run, String.toList_append, List.foldlM_append]
  change (run ⟨found, .code joined⟩ a).bind _ = _
  rw [hrun, ← List.append_assoc]
  exact hrun'

theorem weaken [s'.Within s] [t.Within t'] (h : Shows s t ls a) : Shows s' t' ls a := by
  intro found joined hjoined
  obtain ⟨joined', hrun, hfree⟩ := h found joined fun hs =>
    hjoined (Stage.Within.isFree_of_isFree hs)
  exact ⟨joined', hrun, fun ht => hfree (Stage.Within.isFree_of_isFree ht)⟩

end Shows

section

variable {s t : Stage} {text : String}

theorem Stage.freesTo_of_not_isFree (ht : t.isFree = false) : s.freesTo t text = true := by
  unfold freesTo
  split <;> simp [ht]

theorem shows_of_isPlain (h : ∀ c ∈ text.toList, isPlain c = true)
    (hfree : s.freesTo t text = true) : Shows s t [] text := by
  intro found joined hjoined
  refine ⟨_, by rw [run, foldlM_of_isPlain h, List.append_nil], fun ht => ?_⟩
  unfold Stage.freesTo at hfree
  split at hfree
  · next hlast => simp_all
  · next c hlast => simp_all

theorem shows_pad (level : ℕ) : Shows .fresh .operand [] (pad level) := by
  have hblank : ∀ c ∈ (pad level).toList, c = ' ' := by
    simp [pad]
  refine shows_of_isPlain (fun c hc => by rw [hblank c hc]; decide) ?_
  unfold Stage.freesTo
  split
  · rfl
  · next c hlast =>
    rw [hblank c (List.mem_of_getLast? hlast)]
    rfl

theorem shows_commentLine (level : ℕ) {tag line : String} (htag : '\n' ∉ tag.toList)
    (hline : '\n' ∉ line.toList) :
    Shows .fresh .fresh [] (commentLine level ("//" ++ tag) line) := by
  let shown : String := tag ++ if (Text.trimEnd line).isEmpty then "" else " " ++ Text.trimEnd line
  have hshown : '\n' ∉ shown.toList := by
    have htrim := newline_not_mem_trimEnd hline
    by_cases hempty : Text.trimEnd line = "" <;> simp [shown, htag, htrim, hempty]
  have hcomment : Shows .operand .fresh [] ("//" ++ shown ++ "\n") := by
    intro found joined _
    refine ⟨false, ?_, fun _ => rfl⟩
    have hopen :
        ("//" : String).toList.foldlM step ⟨found, .code joined⟩ = some ⟨found, .comment⟩ := rfl
    rw [run, String.toList_append, String.toList_append, List.foldlM_append, List.foldlM_append,
      hopen]
    simp [foldlM_comment hshown, step]
  have htext : commentLine level ("//" ++ tag) line = pad level ++ ("//" ++ shown ++ "\n") := by
    simp only [commentLine, shown, String.append_assoc]
  rw [htext]
  exact (shows_pad level).append hcomment

theorem shows_commentLines (level : ℕ) {tag : String} (htag : '\n' ∉ tag.toList)
    (entries : List String) :
    Shows .fresh .fresh [] (commentLines level ("//" ++ tag) entries) := by
  refine join_of_append .empty (fun a b => .append) fun a ha => ?_
  obtain ⟨line, hline, rfl⟩ := List.mem_map.mp ha
  exact shows_commentLine level htag (newline_not_mem_of_mem_flatMap_splitAt entries line hline)

/-- A literal is the only one of its text. -/
theorem shows_of_ofText? {l : Literal} (h : Literal.ofText? text = some l) :
    Shows .operand .inked [l] text := by
  intro found joined hjoined
  obtain rfl : joined = false := hjoined rfl
  exact ⟨true, run_of_ofText? h found, nofun⟩

end

theorem Laid.shows {s t : Stage} {c : Content} {text : String} (h : Laid s t c text) :
    Shows s t c.literals text := by
  induction h with
  | empty => exact .empty
  | append _ _ iha ihb => exact iha.append ihb
  | weaken _ ih => exact ih.weaken
  | mark h =>
    simp only [Stage.leadsTo, Bool.and_eq_true] at h
    exact shows_of_isPlain (List.all_eq_true.mp h.1.1) h.2
  | word _ h =>
    refine shows_of_isPlain (fun c hc => ?_) (Stage.freesTo_of_not_isFree rfl)
    rcases h c hc with hsegment | rfl
    · exact isPlain_of_inSegment hsegment
    · rfl
  | text s => exact shows_of_ofText? (Literal.ofText?_quoted s)
  | char c => exact shows_of_ofText? (Literal.ofText?_quotedChar c)
  | lifetime =>
    intro found joined hjoined
    obtain rfl : joined = false := hjoined rfl
    exact ⟨true, by rw [List.append_nil]; rfl, nofun⟩
  | pad level => exact shows_pad level
  | remark level entries =>
    exact shows_commentLines level (by decide : '\n' ∉ ("" : String).toList) entries
  | doc level hmarker entries =>
    rcases List.mem_pair.mp hmarker with rfl | rfl
    · exact shows_commentLines level (by decide : '\n' ∉ ("/" : String).toList) entries
    · exact shows_commentLines level (by decide : '\n' ∉ ("!" : String).toList) entries

/-- The literals of a rendered text are those of its tree. -/
theorem File.literals?_of_render {f : File} {text : String} (h : f.render = .ok text) :
    literals? text = some f.literals := by
  obtain ⟨joined, hrun, -⟩ := (File.laid_of_render h).shows [] false fun _ => rfl
  rw [literals?, hrun]
  rfl

end Scaffold.Source
