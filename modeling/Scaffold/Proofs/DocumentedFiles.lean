import Scaffold.Proofs.LaidOutFiles
import Scaffold.Proofs.Returns

/-!
The documentation of a file and its text. A documentation comment of the text holds a carriage
return just where an entry of the documentation has one within: remarks are no documentation, and
no other piece of the text holds a return.
-/

namespace Scaffold.Source

open Naming Text

/-- The text so far: lines with this documentation, and code without a return behind them. -/
def Told (s : Stage) (docs : List String) (text : String) : Prop :=
  ∃ lines code, text = lines ++ code ∧ Documents docs lines ∧ '\r' ∉ code.toList ∧
    (s = .fresh → WholeLines code)

/-- The text goes on with this documentation. -/
def Tells (s t : Stage) (docs : List String) (text : String) : Prop :=
  ∀ (told : List String) (front : String), Told s told front → Told t (told ++ docs) (front ++ text)

/-- Only the start of a line is where no pen is but the one at the start of a line. -/
theorem Stage.eq_fresh {s : Stage} (h : ∀ p, s.admits p = true → fresh.admits p = true) :
    s = fresh := by
  cases s with
  | fresh => rfl
  | operand => exact absurd (h (.margin 4) rfl) (by decide)
  | ready => exact absurd (h (.margin 4) rfl) (by decide)
  | written => exact absurd (h .ink rfl) (by decide)
  | inked => exact absurd (h .ink rfl) (by decide)

section

variable {s s' t t' u : Stage} {docs docs' : List String} {a b text : String}

theorem Told.documents (h : Told .fresh docs text) : Documents docs text := by
  obtain ⟨lines, code, rfl, hlines, hreturn, hcode⟩ := h
  simpa using hlines.append (.code (hcode rfl) hreturn)

theorem Told.weaken [t.Within t'] (h : Told t docs text) : Told t' docs text := by
  obtain ⟨lines, code, htext, hlines, hreturn, hcode⟩ := h
  refine ⟨lines, code, htext, hlines, hreturn, ?_⟩
  rintro rfl
  exact hcode (Stage.eq_fresh fun p => Stage.Within.admits_of_admits)

theorem Tells.append (ha : Tells s t docs a) (hb : Tells t u docs' b) :
    Tells s u (docs ++ docs') (a ++ b) := by
  intro told front hfront
  rw [← List.append_assoc, ← String.append_assoc]
  exact hb _ _ (ha told front hfront)

/-- A text of whole lines without returns is empty only where it starts at a line. -/
theorem wholeLines_of_takes {code : String} (h : Takes s .fresh text)
    (hcode : s = .fresh → WholeLines code) : WholeLines (code ++ text) := by
  by_cases hempty : text = ""
  · subst hempty
    have hs : s = .fresh := Stage.eq_fresh fun p hp => by
      obtain ⟨q, hrun, hq⟩ := h p hp
      rwa [← Option.some.inj hrun] at hq
    simpa using hcode hs
  · obtain ⟨p, hp⟩ : ∃ p, s.admits p = true := by
      cases s with
      | fresh | operand | ready => exact ⟨.margin 0, rfl⟩
      | written | inked => exact ⟨.ink, rfl⟩
    obtain ⟨q, hrun, hq⟩ := h p hp
    obtain rfl : q = .margin 0 := by cases q <;> simp_all [Stage.admits]
    exact wholeLines_of_getLast? _ _ ((Pen.getLast?_of_run hrun).resolve_left hempty)

/-- Code without returns documents nothing. -/
theorem tells_code (h : Takes s t text) (hreturn : '\r' ∉ text.toList) : Tells s t [] text := by
  rintro told front ⟨lines, code, rfl, hlines, hcode, hwhole⟩
  refine ⟨lines, code ++ text, String.append_assoc .., by rwa [List.append_nil], ?_, ?_⟩
  · rw [String.toList_append, List.mem_append, not_or]
    exact ⟨hcode, hreturn⟩
  · rintro rfl
    exact wholeLines_of_takes h hwhole

theorem tells_lines (h : Documents docs text) : Tells .fresh .fresh docs text :=
  fun _ front hfront =>
    ⟨front ++ text, "", by simp, hfront.documents.append h, List.not_mem_nil, fun _ => .inl rfl⟩

end

theorem Laid.tells {s t : Stage} {c : Content} {text : String} (h : Laid s t c text) :
    Tells s t c.docs text := by
  induction h with
  | empty => exact tells_code .empty List.not_mem_nil
  | append _ _ iha ihb => exact iha.append ihb
  | weaken _ ih => exact fun told front hfront => (ih told front hfront.weaken).weaken
  | mark h =>
    refine tells_code (Laid.mark h).takes fun hmem => ?_
    simp only [Stage.leadsTo, Bool.and_eq_true] at h
    exact absurd (List.all_eq_true.mp h.1.1 _ hmem) (by decide)
  | word hne h =>
    refine tells_code (Laid.word hne h).takes fun hmem => ?_
    rcases h _ hmem with hsegment | hcolon
    · exact absurd hsegment (by decide)
    · exact absurd hcolon (by decide)
  | text s =>
    exact tells_code (Laid.text s).takes fun hmem =>
      absurd (Literal.oneLine_quoted s _ hmem) (by decide)
  | char c =>
    exact tells_code (Laid.char c).takes fun hmem =>
      absurd (Literal.oneLine_quotedChar c _ hmem) (by decide)
  | lifetime => exact tells_code Laid.lifetime.takes (by decide)
  | pad level => exact tells_code (Laid.pad level).takes (by simp [Source.pad])
  | remark level entries => exact tells_lines (documents_remarks level entries)
  | doc level hmarker entries => exact tells_lines (documents_commentLines level hmarker entries)

/-- A documentation comment of a rendered text holds a carriage return just where an entry of the
documentation has one within. -/
theorem File.showsReturn_iff_of_render {f : File} {text : String} (h : f.render = .ok text) :
    ShowsReturn text ↔ AnyReturn f.docs := by
  have hstart : Told .fresh [] "" :=
    ⟨"", "", rfl, .code (.inl rfl) List.not_mem_nil, List.not_mem_nil, fun _ => .inl rfl⟩
  have htold := (File.laid_of_render h).tells [] "" hstart
  rw [List.nil_append, String.empty_append] at htold
  exact htold.documents.showsReturn_iff

end Scaffold.Source
