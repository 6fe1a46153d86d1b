import Scaffold.Proofs.CodeLines
import Scaffold.Proofs.Literals

/-!
The literals of a source text, in the order in which they stand there. A reader goes over the text
and tells code, comments and literals apart; a quote opens a literal only where it does not belong
to the word in front of it.
-/

namespace Scaffold.Source

open Naming

/-- Where in a source text a reader is. -/
inductive Place where
  /-- Whether a quote would belong to what stands in front of it. -/
  | code (joined : Bool)
  /-- Behind a slash, which may open a comment. -/
  | slash
  | comment
  | literal (c : Literal.Cursor)

/-- A reader and the literals that it has gone over. -/
structure Scan where
  found : List Literal := []
  place : Place := .code false

namespace Scan

def isJoint (c : Char) : Bool := isWordChar c || c == '#'

def isWordStart (c : Char) : Bool := c.isAlpha || c == '_'

/-- One more character of code. Literals with a word in front of their quote are not read. -/
def inCode (found : List Literal) (joined : Bool) (c : Char) : Option Scan :=
  match Literal.Cursor.open? c with
  | some cursor => if joined then none else some ⟨found, .literal cursor⟩
  | none => some ⟨found, if c = '/' then .slash else .code (isJoint c)⟩

/-- The reader behind one more character. A quote and a letter without another quote are the start
of a lifetime. -/
def step : Scan → Char → Option Scan
  | ⟨found, .code joined⟩, c => inCode found joined c
  | ⟨found, .slash⟩, c =>
    if c = '/' then some ⟨found, .comment⟩
    else if c = '*' then none
    else inCode found false c
  | ⟨found, .comment⟩, c => some ⟨found, if c = '\n' then .code false else .comment⟩
  | ⟨found, .literal cursor⟩, c =>
    match cursor.step c with
    | some (.closed l) => some ⟨found ++ [l], .code true⟩
    | some cursor => some ⟨found, .literal cursor⟩
    | none =>
      match cursor with
      | .single d => if isWordStart d then inCode found true c else none
      | _ => none

def run (r : Scan) (text : String) : Option Scan := text.toList.foldlM step r

end Scan

/-- The literals of a source text, unless it ends within one. -/
def literals? (text : String) : Option (List Literal) :=
  match Scan.run {} text with
  | some ⟨found, .code _⟩ => some found
  | some ⟨found, .comment⟩ => some found
  | _ => none

namespace Scan

/-- Neither a quote nor the start of a comment, and no carriage return. -/
def isPlain (c : Char) : Bool := c != '"' && c != '\'' && c != '/' && c != '\r'

theorem step_of_isPlain {c : Char} (h : isPlain c = true) (found : List Literal) (joined : Bool) :
    step ⟨found, .code joined⟩ c = some ⟨found, .code (isJoint c)⟩ := by
  simp only [isPlain, Bool.and_eq_true, bne_iff_ne] at h
  obtain ⟨⟨⟨htext, hchar⟩, hslash⟩, -⟩ := h
  have hopen : Literal.Cursor.open? c = none := by
    unfold Literal.Cursor.open?
    split <;> first | contradiction | rfl
  simp [step, inCode, hopen, hslash]

theorem foldlM_of_isPlain {cs : List Char} (h : ∀ c ∈ cs, isPlain c = true) (found : List Literal)
    (joined : Bool) :
    cs.foldlM step ⟨found, .code joined⟩ =
      some ⟨found, .code ((cs.getLast?.map isJoint).getD joined)⟩ := by
  induction cs generalizing joined with
  | nil => rfl
  | cons c cs ih =>
    rw [List.forall_mem_cons] at h
    rw [List.foldlM_cons, step_of_isPlain h.1]
    refine (ih h.2 (isJoint c)).trans ?_
    cases cs with
    | nil => rfl
    | cons d ds => simp [List.getLast?_eq_some_getLast]

/-- A comment shows nothing up to the end of its line. -/
theorem foldlM_comment {cs : List Char} (h : '\n' ∉ cs) (found : List Literal) :
    cs.foldlM step ⟨found, .comment⟩ = some ⟨found, .comment⟩ := by
  induction cs with
  | nil => rfl
  | cons c cs ih =>
    obtain ⟨hc, hcs⟩ := not_or.mp (mt List.mem_cons.mpr h)
    rw [List.foldlM_cons]
    simpa [step, Ne.symm hc] using ih hcs

/-- A literal that is read up to its closing quote is found there. -/
theorem foldlM_literal {cs : List Char} {cursor : Literal.Cursor} {l : Literal}
    (hopen : ∀ l, cursor ≠ .closed l) (h : cs.foldlM Literal.Cursor.step cursor = some (.closed l))
    (found : List Literal) :
    cs.foldlM step ⟨found, .literal cursor⟩ = some ⟨found ++ [l], .code true⟩ := by
  induction cs generalizing cursor with
  | nil =>
    obtain rfl : cursor = .closed l := by simpa using h
    exact absurd rfl (hopen l)
  | cons c cs ih =>
    rw [List.foldlM_cons] at h ⊢
    obtain ⟨next, hstep, hrest⟩ := Option.bind_eq_some_iff.mp h
    by_cases hclosed : ∃ l', next = .closed l'
    · -- Nothing goes on behind the closing quote, so the text is over.
      obtain ⟨l', rfl⟩ := hclosed
      cases cs with
      | cons d ds => simp [Literal.Cursor.step] at hrest
      | nil =>
        obtain rfl : l' = l := by simpa using hrest
        simp [step, hstep]
    · have hnext : ∀ l', next ≠ .closed l' := fun l' hl' => hclosed ⟨l', hl'⟩
      have hgo : step ⟨found, .literal cursor⟩ c = some ⟨found, .literal next⟩ := by
        cases next <;> simp_all [step]
      rw [hgo]
      exact ih hnext hrest

/-- The reader behind a text that is just one literal. -/
theorem run_of_ofText? {text : String} {l : Literal} (h : Literal.ofText? text = some l)
    (found : List Literal) :
    run ⟨found, .code false⟩ text = some ⟨found ++ [l], .code true⟩ := by
  unfold Literal.ofText? at h
  split at h
  · cases h
  next c cs htext =>
    split at h
    next l' hrun =>
      obtain rfl : l' = l := by simpa using h
      obtain ⟨cursor, hcursor, hrest⟩ := Option.bind_eq_some_iff.mp hrun
      have hopen : ∀ l, cursor ≠ .closed l := by
        unfold Literal.Cursor.open? at hcursor
        split at hcursor <;> cases hcursor <;> nofun
      have hfirst : step ⟨found, .code false⟩ c = some ⟨found, .literal cursor⟩ := by
        simp [step, inCode, hcursor]
      rw [run, htext, List.foldlM_cons, hfirst]
      exact foldlM_literal hopen hrest found
    next => cases h

end Scan

end Scaffold.Source
