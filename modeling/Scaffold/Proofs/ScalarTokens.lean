import Scaffold.Proofs.BlockScalars
import Scaffold.Proofs.LexerLines

/-!
Each text is one token. Whatever form a text is written in, behind its key or dash the lexer finds
one scalar with that text, and goes on with the next line of the document.
-/

namespace Scaffold.Yaml

namespace Lexer

variable {indent : Int} {outer : List Int} {ts res : List Token} {n i l k : Nat} {r : List Char}

/-- The place where a key may start. -/
def candidateAt (c : Cursor) (indent : Int) (ts : List Token) : Candidate :=
  { required := indent == (c.column : Int)
    position := ts.length
    index := c.index
    line := c.line
    column := c.column }

/-- What is noted where a scalar starts: where keys are allowed, that it may be one. -/
def noted (allowed : Bool) (c : Cursor) (indent : Int) (ts : List Token) : Option Candidate :=
  if allowed then some (candidateAt c indent ts) else none

theorem eq_of_mem_noted {allowed : Bool} {c : Cursor} {x : Candidate}
    (h : x ∈ noted allowed c indent ts) : x = candidateAt c indent ts := by
  cases allowed with
  | false => cases h
  | true => exact (Option.some.inj h).symm

theorem noteCandidate?_laid (c : Cursor) (allowed : Bool) :
    (laid c indent outer allowed none ts).noteCandidate? =
      some (laid c indent outer allowed (noted allowed c indent ts) ts) := by
  cases allowed <;> rfl

theorem plainScalar?_laid {c : Cursor} {allowed : Bool} {p : Plain}
    (h : plain? false indent c = some p) :
    (laid c indent outer allowed none ts).plainScalar? =
      some (laid p.cursor indent outer p.endsOnNewLine (noted allowed c indent ts)
        (.scalar .plain (String.ofList p.text) :: ts)) := by
  rw [plainScalar?, noteCandidate?_laid]
  simp only [Option.bind_eq_bind, Option.bind_some, inFlow_laid, indent_laid, cursor_laid, h,
    moveTo_laid, allowKey_laid, push_laid]

theorem keyStart?_laid {c c' : Cursor} {allowed : Bool} {t : Token}
    {read : Cursor → Option (Token × Cursor)} (h : read c = some (t, c')) :
    (laid c indent outer allowed none ts).keyStart? read =
      some (laid c' indent outer false (noted allowed c indent ts) (t :: ts)) := by
  rw [keyStart?, noteCandidate?_laid]
  simp only [Option.bind_eq_bind, Option.bind_some, cursor_laid, h, moveTo_laid, allowKey_laid,
    push_laid]

/-- A plain scalar may start so, apart from what only the start of a line forbids. -/
structure OpensPlain (c : Char) (r : List Char) : Prop where
  solid : isGap c = false
  unmarked : isFirstMark c = false
  no_indicator : ((c == '?' || c == ':' || c == '-') && gapAhead r) = false

theorem not_blank_of_gapAhead {r : List Char} (h : gapAhead r = false) :
    r.head?.any isSpaceOrTab = false := by
  cases r with
  | nil => rfl
  | cons d r =>
    simp only [gapAhead, List.head?_cons, Option.all_some, isGap, Bool.or_eq_false_iff] at h
    exact h.1

theorem OpensPlain.startsPlain {c : Char} {r : List Char} (h : OpensPlain c r) :
    startsPlain false c r = true := by
  have hindicator := h.no_indicator
  have hmarks := h.unmarked
  simp only [isFirstMark, Bool.or_eq_false_iff] at hmarks
  rw [Lexer.startsPlain]
  by_cases hdash : c = '-'
  · subst hdash
    have hgap : gapAhead r = false := by simpa using hindicator
    simp [not_blank_of_gapAhead hgap]
  · by_cases hother : (c == '?' || c == ':') = true
    · have hgap : gapAhead r = false := by simpa [hother] using hindicator
      simp [hdash, hother, hgap]
    · simp [hdash, hother, isFlowMark, h.solid, hmarks]

/-- Outside of brackets and of the marks between documents, such a character starts a scalar. -/
theorem OpensPlain.token? {x : Lexer} {c : Char} {r : List Char} (h : OpensPlain c r)
    (hflow : x.inFlow = false) (hdash : x.cursor.atRule '-' = false)
    (hdot : x.cursor.atRule '.' = false) : x.token? c r = x.plainScalar? := by
  have hindicator := h.no_indicator
  have hmarks := h.unmarked
  have hstarts := h.startsPlain
  simp only [isFirstMark, Bool.or_eq_false_iff] at hmarks
  have hentry : (c == '-' && gapAhead r) = false := by
    cases hgap : gapAhead r <;> simp_all
  have hkey : (c == '?' && gapAhead r) = false := by
    cases hgap : gapAhead r <;> simp_all
  have hvalue : (c == ':' && gapAhead r) = false := by
    cases hgap : gapAhead r <;> simp_all
  rw [Lexer.token?]
  simp [hflow, hdash, hdot, hmarks, hstarts, hentry, hkey, hvalue]

theorem opensPlain_of_fitsPlain {c : Char} {cs : List Char} (h : fitsPlain (c :: cs) = true)
    (r : List Char) : OpensPlain c (cs ++ '\n' :: r) := by
  have hsolid := (bare_of_fitsPlain h (List.cons_ne_nil c cs)).solid c rfl
  simp only [fitsPlain, hasMark, Bool.not_eq_true', Bool.or_eq_false_iff] at h
  obtain ⟨-, ⟨⟨-, hfirst⟩, hindicator⟩, -⟩ := h
  have hahead : gapAhead (cs ++ '\n' :: r) = gapAhead cs := by cases cs <;> rfl
  exact ⟨hsolid, hfirst, by rw [hahead]; exact hindicator⟩

theorem OpensPlain.visible {c : Char} {r : List Char} (h : OpensPlain c r) : Visible (c :: r) := by
  refine visible_cons h.solid ?_ r
  rintro rfl
  exact absurd h.unmarked (by decide)

/-- What is read on the lines behind a scalar that may have been noted as the start of a key. -/
theorem Lines.yields (h : Lines r n outer ts res) {m : Nat} {body : List Char}
    (hr : r = blanks m ++ body) (allowed : Bool) {c : Cursor} (hn : n < c.column) {i l : Nat}
    (hl : c.line < l) {before : List Token} :
    (laid ⟨body, i, l, m⟩ n outer true (noted allowed c n before) ts).Yields res := by
  have hnext := h i l m body hr
  cases allowed with
  | false => exact hnext
  | true =>
    have hne : (n : Int) ≠ c.column := by omega
    exact hnext.stale hl (by simpa [candidateAt] using hne)

/-- The first token behind a blank that is right of the block. -/
theorem Yields.behind_blank {c : Char} {code : List Char} (hcode : Visible (c :: code)) (hk : n ≤ k)
    {allowed : Bool} {x : Lexer}
    (htoken : (laid ⟨c :: code, i + 1, l, k + 1⟩ n outer allowed none ts).token? c code = some x)
    (hless : x.cursor.rest.length ≤ (c :: code).length) (h : x.Yields res) :
    (laid ⟨' ' :: c :: code, i, l, k⟩ n outer allowed none ts).Yields res := by
  refine Yields.step (settle?_blanks 1 hcode allowed) rfl ?_ (Nat.lt_succ_of_le hless) h
  rw [cursor_laid, closeBlocks_of_le (by simp only; omega), htoken]

theorem plain?_of_bare {m : Nat} (hm : m ≤ n) {body : List Char} (hbody : Solid body)
    {cs : List Char} (hcs : Bare cs) (i l : Nat) (hk : n < k) :
    ∃ i' l', l < l' ∧ plain? false n ⟨cs ++ '\n' :: (blanks m ++ body), i, l, k⟩ =
      some ⟨cs, true, ⟨body, i', l', m⟩⟩ :=
  plainRuns_of_bare n m hm hbody _ hcs
    (by simp only [List.length_append, List.length_cons]; omega) [] i l k hk

/-- A plain scalar is one token, and the lines behind it are read on. -/
theorem yields_plain (hk : n ≤ k) {cs : List Char} (hfits : fitsPlain cs = true) (hne : cs ≠ [])
    (allowed : Bool) (hr : Below n r)
    (h : Lines r n outer (.scalar .plain (String.ofList cs) :: ts) res) :
    (laid ⟨' ' :: (cs ++ '\n' :: r), i, l, k⟩ n outer allowed none ts).Yields res := by
  obtain ⟨m, body, rfl, hm, hbody⟩ := hr
  obtain ⟨i', l', hl, hplain⟩ := plain?_of_bare hm hbody.solid (bare_of_fitsPlain hfits hne)
    (i + 1) l (Nat.lt_succ_of_le hk)
  obtain ⟨c, cs, rfl⟩ := List.exists_cons_of_ne_nil hne
  have hopens := opensPlain_of_fitsPlain hfits (blanks m ++ body)
  have htoken : (laid ⟨c :: (cs ++ '\n' :: (blanks m ++ body)), i + 1, l, k + 1⟩ n outer allowed
      none ts).token? c (cs ++ '\n' :: (blanks m ++ body)) = some _ :=
    (hopens.token? rfl (atRule_of_column _ _ _ k.succ_pos _)
      (atRule_of_column _ _ _ k.succ_pos _)).trans (plainScalar?_laid hplain)
  refine Yields.behind_blank hopens.visible hk htoken ?_
    (h.yields rfl allowed (Nat.lt_succ_of_le hk) hl)
  simp only [cursor_laid, List.length_append, List.length_cons]
  omega

theorem quoteMark_visible (double : Bool) (r : List Char) : Visible (quoteMark double :: r) := by
  cases double <;> exact visible_cons rfl (by decide) r

theorem token?_quoteMark {x : Lexer} (double : Bool) (r : List Char)
    (hdash : x.cursor.atRule '-' = false) (hdot : x.cursor.atRule '.' = false) :
    x.token? (quoteMark double) r = x.keyStart? fun d =>
      (quoted? double d).map fun p => (.scalar .quoted (String.ofList p.1), p.2) := by
  rw [Lexer.token?, hdash, hdot]
  cases double <;> cases x.cursor.column == 0 <;> rfl

/-- A quoted scalar is one token, and the lines behind it are read on. -/
theorem yields_quoted (hk : n ≤ k) {double : Bool} {code cs : List Char} {i' l' k' : Nat}
    (hl : l ≤ l')
    (hread : quoted? double ⟨quoteMark double :: code ++ '\n' :: r, i + 1, l, k + 1⟩ =
      some (cs, ⟨'\n' :: r, i', l', k'⟩)) (allowed : Bool)
    (h : Lines r n outer (.scalar .quoted (String.ofList cs) :: ts) res) :
    (laid ⟨' ' :: quoteMark double :: (code ++ '\n' :: r), i, l, k⟩ n outer allowed none ts).Yields
      res := by
  have htoken := (token?_quoteMark (x := laid ⟨quoteMark double :: (code ++ '\n' :: r), i + 1, l,
    k + 1⟩ n outer allowed none ts) double (code ++ '\n' :: r) (atRule_of_column _ _ _ k.succ_pos _)
    (atRule_of_column _ _ _ k.succ_pos _)).trans (keyStart?_laid (congrArg _ hread))
  refine Yields.behind_blank (quoteMark_visible double _) hk htoken ?_
    (Yields.newline false _ (h.yields (m := 0) rfl allowed (Nat.lt_succ_of_le hk)
      (Nat.lt_succ_of_le hl)))
  simp only [cursor_laid, List.length_append, List.length_cons]
  omega

theorem outside_of_visible {m margin : Nat} (hm : m < margin) {body : List Char}
    (hbody : Visible body) : Outside margin m body := by
  refine ⟨hm, fun c hc => ⟨isBreak_of_isGap (hbody c hc).1, ?_⟩, fun h => ?_⟩
  · rintro rfl
    exact absurd (hbody _ hc).1 (by decide)
  · exact absurd (hbody ' ' h).1 (by decide)

/-- A literal block is one token, and it ends with the line in front of what is read on. -/
theorem yields_literal (hk : n ≤ k) {cs : List Char} (hfits : fitsLiteral cs = true)
    (hne : cs ≠ []) (allowed : Bool) (hr : Below n r)
    (h : Lines r n outer (.scalar .literal (String.ofList cs) :: ts) res) :
    (laid ⟨' ' :: (literalBlock (n + 2) cs ++ (lineEnd cs ++ r)), i, l, k⟩ n outer allowed none
      ts).Yields res := by
  obtain ⟨m, body, rfl, hm, hbody⟩ := hr
  obtain ⟨i', l', hblock⟩ := block?_literalBlock (blockable_of_fitsLiteral hfits) hne
    (outside_of_visible (by omega : m < n + 2) hbody) (i + 1) l (k + 1)
  obtain ⟨code, hcode⟩ : ∃ code, literalBlock (n + 2) cs = '|' :: code := ⟨_, rfl⟩
  rw [hcode, List.cons_append] at hblock ⊢
  have htoken : (laid ⟨'|' :: (code ++ (lineEnd cs ++ (blanks m ++ body))), i + 1, l, k + 1⟩ n outer
      allowed none ts).token? '|' (code ++ (lineEnd cs ++ (blanks m ++ body))) =
        some (laid ⟨body, i', l', m⟩ n outer true none
          (.scalar .literal (String.ofList cs) :: ts)) := by
    have hscalar : (laid ⟨'|' :: (code ++ (lineEnd cs ++ (blanks m ++ body))), i + 1, l, k + 1⟩ n
        outer allowed none ts).token? '|' (code ++ (lineEnd cs ++ (blanks m ++ body))) =
          blockScalar? _ true := rfl
    rw [hscalar, blockScalar?, dropCandidate?]
    simp [hblock]
  refine Yields.behind_blank (visible_cons rfl (by decide) _) hk htoken ?_ (h i' l' m body rfl)
  simp only [cursor_laid, List.length_append, List.length_cons]
  omega

end Lexer

theorem endLine_eq (cs : List Char) : endLine cs = cs ++ lineEnd cs := by
  rw [endLine, lineEnd]
  split
  · rw [List.append_nil]
  · rfl

theorem getLast?_literalBody (n : Nat) (behind : Bool) (cs : List Char) :
    (literalBody n behind cs).getLast? = cs.getLast? := by
  induction cs generalizing behind with
  | nil => rfl
  | cons c cs ih =>
    have hrest : ∀ b, (c :: literalBody n b cs).getLast? = (c :: cs).getLast? := fun b => by
      rw [List.getLast?_cons, List.getLast?_cons, ih]
    rw [literalBody]
    split
    · exact hrest true
    · rw [List.getLast?_append_of_ne_nil _ (List.cons_ne_nil _ _), hrest]

theorem lineEnd_literalBlock (n : Nat) {cs : List Char} (hne : cs ≠ []) :
    lineEnd (literalBlock n cs) = lineEnd cs := by
  have hlast : (literalBlock n cs).getLast? = cs.getLast? := by
    have hbody : literalBody n true cs ≠ [] := by
      intro h
      apply hne
      rw [← List.getLast?_eq_none_iff, ← getLast?_literalBody n true, h]
      rfl
    have hblock : literalBlock n cs =
        ('|' :: indentMark cs ++ chompMark cs ++ ['\n']) ++ literalBody n true cs := by
      simp [literalBlock]
    rw [hblock, List.getLast?_append_of_ne_nil _ hbody, getLast?_literalBody]
  rw [lineEnd, lineEnd, hlast]

/-- How a written text is seen by a reader. -/
def textStyle (s : String) : Style :=
  match form s with
  | .plain => .plain
  | .single => .quoted
  | .double => .quoted
  | .literal => .literal

/-- What the reader relies on where a form is taken. -/
def Form.Fits (s : String) : Form → Prop
  | .plain => meaning s = .text ∧ fitsPlain s.toList = true ∧ s.toList ≠ []
  | .single => fitsSingle s.toList = true ∧ '\n' ∉ s.toList
  | .double => True
  | .literal => fitsLiteral s.toList = true ∧ s.toList ≠ []

theorem fits_form (s : String) : (form s).Fits s := by
  unfold form
  by_cases hfeed : s.toList.contains '\n' = true
  · rw [if_pos hfeed]
    split
    next hliteral =>
      refine ⟨hliteral, fun h => ?_⟩
      rw [h] at hfeed
      exact absurd hfeed (by decide)
    next => trivial
  · rw [if_neg hfeed]
    split
    next hplain =>
      simp only [Bool.and_eq_true, decide_eq_true_eq] at hplain
      refine ⟨hplain.1.1, hplain.2, fun h => ?_⟩
      have hempty : s = "" := String.toList_eq_nil_iff.mp h
      rw [hempty] at hplain
      exact absurd hplain.1.1 (by decide)
    next =>
      split
      next hsingle => exact ⟨hsingle, by simpa using hfeed⟩
      next => trivial

theorem Bare.lineEnd_eq {cs : List Char} (h : Bare cs) : lineEnd cs = ['\n'] := by
  obtain ⟨front, c, rfl⟩ := exists_eq_concat h.ne_nil
  apply lineEnd_concat
  by_contra hbreak
  have hblank := h.gap_eq c (by simp) (by simp [isGap, (by simpa using hbreak : isBreak c = true)])
  exact h.last_ne (by simp [hblank])

namespace Lexer

variable {outer : List Int} {ts res : List Token} {n i l k : Nat} {r : List Char}

/-- A text is one token, and the lines behind it are read on. -/
theorem yields_text (hk : n ≤ k) (s : String) (allowed : Bool) (hr : Below n r)
    (h : Lines r n outer (.scalar (textStyle s) s :: ts) res) :
    (laid ⟨' ' :: (endLine (writeText (n + 2) s) ++ r), i, l, k⟩ n outer allowed none ts).Yields
      res := by
  have hfits := fits_form s
  have hquote : ('\n' :: r).head? ≠ some '\'' := by simp
  replace h : Lines r n outer (.scalar (textStyle s) (String.ofList s.toList) :: ts) res := by
    rwa [String.ofList_toList]
  unfold textStyle at h
  unfold writeText
  rw [endLine_eq, List.append_assoc]
  cases hform : form s with
  | plain =>
    rw [hform] at hfits
    simp only [hform] at h ⊢
    rw [(bare_of_fitsPlain hfits.2.1 hfits.2.2).lineEnd_eq]
    exact yields_plain hk hfits.2.1 hfits.2.2 allowed hr h
  | single =>
    rw [hform] at hfits
    simp only [hform] at h ⊢
    obtain ⟨i', l', k', hl, hread⟩ := quoted?_singleQuoted
      (quotable_of_fitsSingle hfits.1 hfits.2) (Nat.succ_pos (n + 1)) hquote (i + 1) l (k + 1)
    rw [singleQuoted, lineEnd_concat _ rfl]
    exact yields_quoted hk hl hread allowed h
  | double =>
    simp only [hform] at h ⊢
    obtain ⟨i', k', hread⟩ := quoted?_doubleQuoted s.toList hquote (i + 1) l (k + 1)
    rw [doubleQuoted, lineEnd_concat _ rfl]
    exact yields_quoted hk (Nat.le_refl l) hread allowed h
  | literal =>
    rw [hform] at hfits
    simp only [hform] at h ⊢
    rw [lineEnd_literalBlock _ hfits.2]
    exact yields_literal hk hfits.1 hfits.2 allowed hr h

/-- A lexer inside of one pair of brackets. -/
def bracketed (c : Cursor) (indent : Int) (outer : List Int) (k : Option Candidate)
    (ts : List Token) : Lexer :=
  { laid c indent outer true k ts with flow := 1, candidates := [none, k] }

theorem openFlow?_laid (c : Cursor) (indent : Int) (allowed : Bool) (t : Token) :
    (laid c indent outer allowed none ts).openFlow? t =
      some (bracketed (c.advance 1) indent outer (noted allowed c indent ts) (t :: ts)) := by
  cases allowed <;> rfl

theorem settle?_bracketed {c : Cursor} {indent : Int} {k : Option Candidate} {r : List Char}
    (hrest : c.rest = ']' :: r) (hk : ∀ x ∈ k, x.line = c.line ∧ c.index ≤ x.index + 1024) :
    (bracketed c indent outer k ts).settle? = some (bracketed c indent outer k ts) := by
  obtain ⟨rest, i, l, column⟩ := c
  subst hrest
  have hskip : (bracketed ⟨']' :: r, i, l, column⟩ indent outer k ts).settle? =
      (bracketed ⟨']' :: r, i, l, column⟩ indent outer k ts).dropStale? := rfl
  rw [hskip]
  cases k with
  | none => rfl
  | some x =>
    obtain ⟨hline, hindex⟩ := hk x rfl
    simp only at hline hindex
    simp [dropStale?, bracketed, laid, hline, Nat.not_lt.mpr hindex]

/-- An empty list is a pair of brackets. -/
theorem yields_brackets (hk : n ≤ k) (allowed : Bool)
    (h : Lines r n outer (.flowListEnd :: .flowListStart :: ts) res) :
    (laid ⟨' ' :: '[' :: ']' :: '\n' :: r, i, l, k⟩ n outer allowed none ts).Yields res := by
  refine Yields.behind_blank (visible_cons rfl (by decide) _) hk
    (openFlow?_laid _ n allowed .flowListStart) (Nat.le_succ _) ?_
  refine Yields.step (settle?_bracketed rfl fun x hx => ?_) rfl rfl (Nat.lt_succ_self _)
    (Yields.newline false _ (h.yields (m := 0) rfl allowed (Nat.lt_succ_of_le hk)
      (Nat.lt_succ_self l)))
  obtain rfl := eq_of_mem_noted hx
  exact ⟨rfl, by simp [candidateAt, Cursor.advance]⟩

end Lexer

end Scaffold.Yaml
