import Mathlib.Data.Nat.Notation
import Scaffold.Text.Blank
import Scaffold.Text.Pieces

/-!
Texts of lines that are indented by fours and have no blanks at their ends. A pen goes over the text
and knows of the line so far what decides how it may go on.
-/

namespace Scaffold.Text

/-- Spaces by fours, and then a character that is not blank. -/
def IsIndented (line : List Char) : Prop :=
  ∃ (level : ℕ) (c : Char) (rest : List Char),
    line = List.replicate (4 * level) ' ' ++ c :: rest ∧ isBlank c = false

def EndsBare (line : List Char) : Prop := ∃ c, line.getLast? = some c ∧ isBlank c = false

theorem endsBare_trimEnd {text : String} (h : (trimEnd text).isEmpty = false) :
    EndsBare (trimEnd text).toList := by
  have hlist : (trimEnd text).toList = (text.toList.reverse.dropWhile isBlank).reverse :=
    String.toList_ofList
  have hbare := List.head?_dropWhile_not isBlank text.toList.reverse
  rw [hlist]
  cases hrest : text.toList.reverse.dropWhile isBlank with
  | nil =>
    rw [hrest] at hlist
    rw [String.toList_eq_nil_iff.mp hlist] at h
    cases h
  | cons c cs =>
    rw [hrest] at hbare
    exact ⟨c, by simp, by simpa using hbare⟩

/-- The line is empty, or indented by fours without a blank at its end. -/
def IsLaidOut (line : List Char) : Prop := line = [] ∨ IsIndented line ∧ EndsBare line

/-- What stands on the line so far. -/
inductive Pen where
  /-- Nothing but spaces. -/
  | margin (width : ℕ)
  /-- A line whose last character is not blank. -/
  | ink
  /-- A line whose last character is blank, behind one that is not. -/
  | gap

namespace Pen

/-- The pen behind one more character, unless the line may not go on so. -/
def step : Pen → Char → Option Pen
  | margin width, c =>
    if c = '\n' then if width = 0 then some (margin 0) else none
    else if c = ' ' then some (margin (width + 1))
    else if isBlank c = false ∧ width % 4 = 0 then some ink
    else none
  | ink, c => if c = '\n' then some (margin 0) else if isBlank c then some gap else some ink
  | gap, c => if c = '\n' then none else if isBlank c then some gap else some ink

def run (p : Pen) (text : String) : Option Pen := text.toList.foldlM step p

/-- What the pen knows of the line. -/
def Knows (line : List Char) : Pen → Prop
  | margin width => line = List.replicate width ' '
  | ink => IsIndented line ∧ EndsBare line
  | gap => IsIndented line

variable {p q : Pen} {line : List Char} {c : Char}

theorem IsIndented.concat (h : IsIndented line) (c : Char) : IsIndented (line ++ [c]) := by
  obtain ⟨level, d, rest, rfl, hd⟩ := h
  exact ⟨level, d, rest ++ [c], by simp, hd⟩

theorem endsBare_concat (h : isBlank c = false) (line : List Char) : EndsBare (line ++ [c]) :=
  ⟨c, by simp, h⟩

theorem Knows.step (h : Knows line p) (hc : c ≠ '\n') (hstep : p.step c = some q) :
    Knows (line ++ [c]) q := by
  cases p with
  | margin width =>
    obtain rfl : line = List.replicate width ' ' := h
    simp only [Pen.step, hc, if_false] at hstep
    split at hstep
    · next hspace =>
      cases hstep
      rw [hspace]
      exact List.replicate_succ'.symm
    · split at hstep
      · next hbare =>
        cases hstep
        refine ⟨⟨width / 4, c, [], ?_, hbare.1⟩, endsBare_concat hbare.1 _⟩
        rw [Nat.mul_div_cancel' (Nat.dvd_of_mod_eq_zero hbare.2)]
      · cases hstep
  | ink =>
    have hline := IsIndented.concat h.1 c
    simp only [Pen.step, hc, if_false] at hstep
    split at hstep <;> cases hstep
    · exact hline
    · next hblank => exact ⟨hline, endsBare_concat (by simpa using hblank) line⟩
  | gap =>
    have hline := IsIndented.concat h c
    simp only [Pen.step, hc, if_false] at hstep
    split at hstep <;> cases hstep
    · exact hline
    · next hblank => exact ⟨hline, endsBare_concat (by simpa using hblank) line⟩

/-- A line that ends is laid out, and the pen is at a new one. -/
theorem Knows.newline (h : Knows line p) (hstep : p.step '\n' = some q) :
    IsLaidOut line ∧ q = margin 0 := by
  cases p with
  | margin width =>
    cases width with
    | zero => exact ⟨.inl h, by simpa [Pen.step] using hstep.symm⟩
    | succ width => simp [Pen.step] at hstep
  | ink => exact ⟨.inr h, by simpa [Pen.step] using hstep.symm⟩
  | gap => simp [Pen.step] at hstep

theorem pieces_of_not_mem (h : '\n' ∉ line) : piecesWhere (· == '\n') line = [line] :=
  piecesWhere_eq_singleton fun _ hc => beq_false_of_ne fun heq => h (heq ▸ hc)

/-- All lines that the pen has gone over are laid out, and it knows the last. -/
theorem Knows.foldlM (h : Knows line p) (hline : '\n' ∉ line) {cs : List Char}
    (hrun : cs.foldlM Pen.step p = some q) :
    ∃ lines last, piecesWhere (· == '\n') (line ++ cs) = lines ++ [last] ∧
      (∀ l ∈ lines, IsLaidOut l) ∧ Knows last q := by
  induction cs generalizing p line with
  | nil =>
    cases hrun
    exact ⟨[], line, by rw [List.append_nil, pieces_of_not_mem hline]; rfl, nofun, h⟩
  | cons c cs ih =>
    rw [List.foldlM_cons] at hrun
    obtain ⟨p', hstep, hrest⟩ := Option.bind_eq_some_iff.mp hrun
    by_cases hc : c = '\n'
    · subst hc
      obtain ⟨hlaid, rfl⟩ := h.newline hstep
      have hempty : Knows [] (margin 0) := rfl
      obtain ⟨lines, last, hpieces, hlines, hlast⟩ := ih hempty List.not_mem_nil hrest
      refine ⟨line :: lines, last, ?_, List.forall_mem_cons.mpr ⟨hlaid, hlines⟩, hlast⟩
      rw [piecesWhere_append _ (by simp), ← List.nil_append cs, hpieces, pieces_of_not_mem hline]
      rfl
    · have hconcat : '\n' ∉ line ++ [c] := by simp [hline, Ne.symm hc]
      obtain ⟨lines, last, hpieces, hrest⟩ := ih (h.step hc hstep) hconcat hrest
      exact ⟨lines, last, by simpa using hpieces, hrest⟩

theorem eq_newline_of_step {p : Pen} {c : Char} (h : p.step c = some (margin 0)) : c = '\n' := by
  by_cases hc : c = '\n'
  · exact hc
  · cases p with
    | margin width =>
      simp only [step, hc, if_false] at h
      split at h
      · cases h
      · split at h <;> cases h
    | ink | gap =>
      simp only [step, hc, if_false] at h
      split at h <;> cases h

theorem step_of_not_blank {p : Pen} (hp : ∀ width, p = margin width → width % 4 = 0) {c : Char}
    (hc : isBlank c = false) : p.step c = some ink := by
  have hline : c ≠ '\n' := by
    rintro rfl
    cases hc
  have hspace : c ≠ ' ' := by
    rintro rfl
    cases hc
  cases p with
  | margin width => simp [step, hline, hspace, hc, hp width rfl]
  | ink => simp [step, hline, hc]
  | gap => simp [step, hline, hc]

/-- A text that takes the pen to the start of a line is empty or ends a line. -/
theorem getLast?_of_run {p : Pen} {text : String} (h : p.run text = some (margin 0)) :
    text = "" ∨ text.toList.getLast? = some '\n' := by
  rcases List.eq_nil_or_concat text.toList with hnil | ⟨init, c, hconcat⟩
  · exact .inl (String.toList_eq_nil_iff.mp hnil)
  · right
    rw [run, hconcat, List.concat_eq_append, List.foldlM_append] at h
    obtain ⟨q, -, hstep⟩ := Option.bind_eq_some_iff.mp h
    have hc : c = '\n' := eq_newline_of_step (p := q) (by simpa using hstep)
    rw [hconcat, hc, List.concat_eq_append, List.getLast?_concat]

/-- The lines of a text that the pen goes over from one start of a line to another. -/
theorem isLaidOut_of_run {text : String} (h : (margin 0).run text = some (margin 0)) :
    ∀ line ∈ splitAt '\n' text, IsLaidOut line.toList := by
  have hempty : Knows [] (margin 0) := rfl
  obtain ⟨lines, last, hpieces, hlines, hlast⟩ := hempty.foldlM List.not_mem_nil h
  intro line hline
  obtain ⟨piece, hpiece, rfl⟩ := List.mem_map.mp hline
  rw [String.toList_ofList]
  rw [← List.nil_append text.toList, hpieces, List.mem_append, List.mem_singleton] at hpiece
  rcases hpiece with hpiece | rfl
  · exact hlines piece hpiece
  · exact .inl hlast

end Pen

end Scaffold.Text
