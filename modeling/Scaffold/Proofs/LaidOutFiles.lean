import Scaffold.Proofs.FileLayouts

/-!
The lines of a rendered file. Whatever its documentation, comments and literals hold, every line is
empty or indented by fours, none ends with a blank, and the last one ends like the others: a pen can
go over each piece of the text from any stage where the piece may stand.
-/

namespace Scaffold

theorem Naming.InSegment.not_blank {c : Char} (h : InSegment c) : Text.isBlank c = false :=
  forall_ascii (fun d => InSegment d → Text.isBlank d = false) (by decide +kernel) c h.lt h

namespace Source

open Naming Text

/-- The text takes a pen at the first stage to the second. -/
def Takes (s t : Stage) (text : String) : Prop :=
  ∀ p : Pen, s.admits p = true → ∃ q, p.run text = some q ∧ t.admits q = true

namespace Takes

variable {s s' t t' u : Stage} {a b text : String}

theorem empty : Takes s s "" := fun p hp => ⟨p, rfl, hp⟩

theorem append (ha : Takes s t a) (hb : Takes t u b) : Takes s u (a ++ b) := by
  intro p hp
  obtain ⟨q, hrun, hq⟩ := ha p hp
  obtain ⟨q', hrun', hq'⟩ := hb q hq
  refine ⟨q', ?_, hq'⟩
  rw [Pen.run, String.toList_append, List.foldlM_append]
  change (p.run a).bind _ = _
  rw [hrun]
  exact hrun'

theorem weaken [s'.Within s] [t.Within t'] (h : Takes s t a) : Takes s' t' a := by
  intro p hp
  obtain ⟨q, hrun, hq⟩ := h p (Stage.Within.admits_of_admits hp)
  exact ⟨q, hrun, Stage.Within.admits_of_admits hq⟩

end Takes

theorem Stage.dvd_of_admits {s : Stage} {p : Pen} (hp : s.admits p = true) (width : ℕ)
    (h : p = .margin width) : width % 4 = 0 := by
  subst h
  cases s <;> simp_all [Stage.admits]

section

variable {s t : Stage} {text : String}

theorem takes_of_drawsTo (h : s.drawsTo t text = true) : Takes s t text := by
  intro p hp
  unfold Stage.drawsTo at h
  split at h
  · cases p with
    | margin width =>
      obtain rfl : width = 0 := by simpa [Stage.admits] using hp
      exact (Option.any_eq_true _ _).mp h
    | ink => cases hp
    | gap => cases hp
  · rw [Bool.and_eq_true] at h
    cases p with
    | margin width => cases hp
    | ink => exact (Option.any_eq_true _ _).mp h.1
    | gap => exact (Option.any_eq_true _ _).mp h.2
  · cases p with
    | margin width => cases hp
    | ink => exact (Option.any_eq_true _ _).mp h
    | gap => cases hp
  · next c cs _ _ _ htext =>
    rw [Bool.and_eq_true, Bool.not_eq_true'] at h
    rw [Pen.run, htext, List.foldlM_cons, Pen.step_of_not_blank (Stage.dvd_of_admits hp) h.1]
    exact (Option.any_eq_true _ _).mp h.2
  · cases h

theorem foldlM_step_of_oneLine {cs : List Char} (h : '\n' ∉ cs) {p : Pen}
    (hp : Stage.written.admits p = true) :
    ∃ q, cs.foldlM Pen.step p = some q ∧ Stage.written.admits q = true := by
  induction cs generalizing p with
  | nil => exact ⟨p, rfl, hp⟩
  | cons c cs ih =>
    obtain ⟨hc, hcs⟩ := not_or.mp (mt List.mem_cons.mpr h)
    obtain ⟨q, hstep, hq⟩ : ∃ q, p.step c = some q ∧ Stage.written.admits q = true := by
      cases p with
      | margin width => cases hp
      | ink | gap =>
        by_cases hblank : isBlank c = true <;> simp [Pen.step, Ne.symm hc, hblank, Stage.admits]
    rw [List.foldlM_cons, hstep]
    exact ih hcs hq

/-- Within a line, a text of one line may be any if it ends with a character that is not blank. -/
theorem foldlM_step_of_endsBare {cs : List Char} (h : '\n' ∉ cs) (hbare : EndsBare cs) {p : Pen}
    (hp : Stage.written.admits p = true) : cs.foldlM Pen.step p = some .ink := by
  obtain ⟨c, hlast, hc⟩ := hbare
  obtain ⟨init, rfl⟩ := List.getLast?_eq_some_iff.mp hlast
  rw [List.mem_append, not_or] at h
  obtain ⟨q, hrun, hq⟩ := foldlM_step_of_oneLine h.1 hp
  rw [List.foldlM_append, hrun]
  change (q.step c).bind _ = _
  rw [Pen.step_of_not_blank (Stage.dvd_of_admits hq) hc]
  rfl

theorem takes_of_endsBare (h : '\n' ∉ text.toList) (hbare : EndsBare text.toList) :
    Takes .written .inked text :=
  fun _ hp => ⟨.ink, foldlM_step_of_endsBare h hbare hp, rfl⟩

/-- Behind an indentation, it must also start with one. -/
theorem takes_of_bare (h : '\n' ∉ text.toList) {c : Char} {cs : List Char}
    (htext : text.toList = c :: cs) (hc : isBlank c = false) (hbare : EndsBare text.toList) :
    Takes .ready .inked text := by
  intro p hp
  refine ⟨.ink, ?_, rfl⟩
  rw [Pen.run, htext, List.foldlM_cons, Pen.step_of_not_blank (Stage.dvd_of_admits hp) hc]
  rw [htext] at h hbare
  cases cs with
  | nil => rfl
  | cons d ds =>
    obtain ⟨-, hrest⟩ := not_or.mp (mt List.mem_cons.mpr h)
    obtain ⟨e, hlast, he⟩ := hbare
    rw [List.getLast?_cons_cons] at hlast
    exact foldlM_step_of_endsBare hrest ⟨e, hlast, he⟩ rfl

end

theorem takes_word (hne : text ≠ "") (h : ∀ c ∈ text.toList, InSegment c ∨ c = ':') :
    Takes .ready .inked text := by
  have hbare : ∀ c ∈ text.toList, isBlank c = false := fun c hc =>
    (h c hc).elim InSegment.not_blank (by rintro rfl; rfl)
  have hline : '\n' ∉ text.toList := fun hmem => absurd (hbare _ hmem) (by decide)
  cases htext : text.toList with
  | nil => exact absurd (String.toList_eq_nil_iff.mp htext) hne
  | cons c cs =>
    have hlast : text.toList.getLast? = some ((c :: cs).getLast (List.cons_ne_nil c cs)) := by
      rw [htext]
      exact List.getLast?_eq_some_getLast _
    exact takes_of_bare hline htext (hbare c (by simp [htext]))
      ⟨_, hlast, hbare _ (List.mem_of_getLast? hlast)⟩

/-- A literal stands on one line between its quotes. -/
theorem takes_literal {text : String} {quote : Char} {body : List Char}
    (htext : text.toList = quote :: (body ++ [quote])) (hquote : isBlank quote = false)
    (h : Literal.OneLine text) : Takes .ready .inked text := by
  refine takes_of_bare (fun hmem => h _ hmem (by decide)) htext hquote ⟨quote, ?_, hquote⟩
  rw [htext, ← List.cons_append, List.getLast?_concat]

theorem takes_pad (level : ℕ) : Takes .fresh .operand (pad level) := by
  have hrun (n width : ℕ) :
      (List.replicate n ' ').foldlM Pen.step (.margin width) = some (.margin (width + n)) := by
    induction n generalizing width with
    | zero => rfl
    | succ n ih =>
      rw [List.replicate_succ, List.foldlM_cons]
      exact (ih (width + 1)).trans (by rw [Nat.add_assoc, Nat.add_comm 1])
  intro p hp
  cases p with
  | margin width =>
    obtain rfl : width = 0 := by simpa [Stage.admits] using hp
    refine ⟨.margin (0 + 4 * level), ?_, by simp [Stage.admits]⟩
    rw [Pen.run, pad, String.toList_ofList, hrun]
  | ink => cases hp
  | gap => cases hp

/-- A comment is trimmed, so that no blank follows its marker or its text. -/
theorem takes_commentLine (level : ℕ) {marker line : String}
    (hmarker : Stage.ready.drawsTo .inked marker = true) (hline : '\n' ∉ line.toList) :
    Takes .fresh .fresh (commentLine level marker line) := by
  have hshown : Takes .inked .inked
      (if (trimEnd line).isEmpty then "" else " " ++ trimEnd line) := by
    split
    · exact .empty
    · next hne =>
      have hbare : EndsBare (trimEnd line).toList := endsBare_trimEnd (by simpa using hne)
      have htext := takes_of_endsBare (newline_not_mem_trimEnd hline) hbare
      have hblank : Takes .inked .written " " := takes_of_drawsTo rfl
      exact hblank.append htext
  have hend : Takes .inked .fresh "\n" := takes_of_drawsTo (by decide)
  exact (takes_pad level).weaken.append (takes_of_drawsTo hmarker) |>.append hshown |>.append hend

theorem takes_commentLines (level : ℕ) {marker : String}
    (hmarker : Stage.ready.drawsTo .inked marker = true) (entries : List String) :
    Takes .fresh .fresh (commentLines level marker entries) := by
  refine join_of_append .empty (fun a b => .append) fun a ha => ?_
  obtain ⟨line, hline, rfl⟩ := List.mem_map.mp ha
  exact takes_commentLine level hmarker (newline_not_mem_of_mem_flatMap_splitAt entries line hline)

theorem Laid.takes {s t : Stage} {c : Content} {text : String} (h : Laid s t c text) :
    Takes s t text := by
  induction h with
  | empty => exact .empty
  | append _ _ iha ihb => exact iha.append ihb
  | weaken _ ih => exact ih.weaken
  | mark h =>
    simp only [Stage.leadsTo, Bool.and_eq_true] at h
    exact takes_of_drawsTo h.1.2
  | word hne h => exact takes_word hne h
  | text s =>
    have htext : (quoted s).toList = '"' :: (s.toList.flatMap (escape '"') ++ ['"']) := by
      simp [quoted, quoteChars]
    exact (takes_literal htext rfl (Literal.oneLine_quoted s)).weaken
  | char c =>
    have htext : (quotedChar c).toList = '\'' :: (escape '\'' c ++ ['\'']) := by simp [quotedChar]
    exact (takes_literal htext rfl (Literal.oneLine_quotedChar c)).weaken
  | lifetime => exact takes_of_drawsTo (by decide)
  | pad level => exact takes_pad level
  | remark level entries => exact takes_commentLines level (by decide) entries
  | doc level hmarker entries =>
    refine takes_commentLines level ?_ entries
    rcases List.mem_pair.mp hmarker with rfl | rfl <;> decide

/-- Text on lines of its own takes the pen from the start of a line to the start of another. -/
theorem Laid.run_eq {c : Content} {text : String} (h : Laid .fresh .fresh c text) :
    (Pen.margin 0).run text = some (.margin 0) := by
  obtain ⟨q, hrun, hq⟩ := h.takes (.margin 0) rfl
  obtain rfl : q = .margin 0 := by
    cases q <;> simp_all [Stage.admits]
  exact hrun

namespace File

/-- The text of a file is empty or ends with a line feed, and each of its lines is empty or indented
by fours without a blank at its end. -/
theorem rendered_lines_are_laid_out (f : File) (text : String) (h : f.render = .ok text) :
    WholeLines text ∧ ∀ line ∈ splitAt '\n' text, IsLaidOut line.toList := by
  have hrun := (File.laid_of_render h).run_eq
  refine ⟨(Pen.getLast?_of_run hrun).imp_right fun hlast => ?_, Pen.isLaidOut_of_run hrun⟩
  obtain ⟨init, hinit⟩ := List.getLast?_eq_some_iff.mp hlast
  exact ⟨String.ofList init, by rw [← String.toList_inj]; simp [hinit]⟩

/-- Documentation and a comment with blanks at the ends of their lines, and a literal with a line
feed in it. -/
def noteFile : File :=
  { doc := ["A note.  ", "\t"]
    items := [.function
      { signature := { name := "note" }
        body := [.comment "first \n\nsecond", .result (.text "a \n b ")] }] }

theorem noteFile_lines_are_laid_out :
    let text := "//! A note.\n//!\n\nfn note() \x7b\n    // first\n    //\n    // second\n" ++
      "    \"a \\n b \"\n\x7d\n"
    noteFile.render = .ok text ∧ WholeLines text ∧
      ∀ line ∈ splitAt '\n' text, IsLaidOut line.toList := by
  intro text
  have hfit : noteFile.defect? = none := by decide +kernel
  have htext : noteFile.layout = text := by decide +kernel
  have hrender : noteFile.render = .ok text := by rw [render, hfit, htext]
  exact ⟨hrender, rendered_lines_are_laid_out noteFile text hrender⟩

end File

end Source

end Scaffold
