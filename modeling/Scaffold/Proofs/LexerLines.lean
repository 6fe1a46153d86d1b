import Scaffold.Proofs.QuotedScalars
import Scaffold.Yaml.Token

/-!
How a lexer goes through the lines of a block. Between two tokens it passes line ends, blanks and
comments, and where a line starts further left than the innermost block, that block is over. What is
left of a text is told by lines, so that it does not matter how much of the indentation in front of
the next token has been passed already.
-/

namespace Scaffold.Yaml

namespace Lexer

/-- A lexer outside of brackets, with at most the one place where a key may have started. -/
def laid (c : Cursor) (indent : Int) (outer : List Int) (allowed : Bool) (k : Option Candidate)
    (ts : List Token) : Lexer :=
  { cursor := c
    flow := 0
    indent
    outer
    keyAllowed := allowed
    candidates := [k]
    count := ts.length
    tokens := ts }

section

variable (c : Cursor) (indent : Int) (outer : List Int) (allowed : Bool) (k : Option Candidate)
  (ts : List Token)

@[simp] theorem cursor_laid : (laid c indent outer allowed k ts).cursor = c := rfl

@[simp] theorem inFlow_laid : (laid c indent outer allowed k ts).inFlow = false := rfl

@[simp] theorem indent_laid : (laid c indent outer allowed k ts).indent = indent := rfl

@[simp] theorem outer_laid : (laid c indent outer allowed k ts).outer = outer := rfl

@[simp] theorem keyAllowed_laid : (laid c indent outer allowed k ts).keyAllowed = allowed := rfl

@[simp] theorem candidate_laid : (laid c indent outer allowed k ts).candidate = k := rfl

@[simp] theorem count_laid : (laid c indent outer allowed k ts).count = ts.length := rfl

@[simp] theorem tokens_laid : (laid c indent outer allowed k ts).tokens = ts := rfl

@[simp] theorem moveTo_laid (c' : Cursor) :
    (laid c indent outer allowed k ts).moveTo c' = laid c' indent outer allowed k ts := rfl

@[simp] theorem allowKey_laid (b : Bool) :
    (laid c indent outer allowed k ts).allowKey b = laid c indent outer b k ts := rfl

@[simp] theorem setCandidate_laid (k' : Option Candidate) :
    (laid c indent outer allowed k ts).setCandidate k' = laid c indent outer allowed k' ts := rfl

@[simp] theorem push_laid (t : Token) :
    (laid c indent outer allowed k ts).push t = laid c indent outer allowed k (t :: ts) := rfl

end

/-- The lexer reads the rest of the text, and these are all tokens then. -/
def Yields (l : Lexer) (ts : List Token) : Prop :=
  ∀ fuel, l.cursor.rest.length < fuel → l.run fuel = some ts

/-- The lexer at its next token, with the stale candidates given up. -/
def settle? (l : Lexer) : Option Lexer := (skipToToken (l.cursor.rest.length + 1) l).dropStale?

theorem run_succ (fuel : Nat) (l : Lexer) :
    l.run (fuel + 1) =
      l.settle?.bind fun l =>
        match l.cursor.rest with
        | [] => (l.closeBlocks (-1)).dropCandidate?.bind fun l => some l.tokens.reverse
        | c :: r => ((l.closeBlocks l.cursor.column).token? c r).bind fun l => l.run fuel := rfl

/-- One token. -/
theorem Yields.step {l l₁ l₂ : Lexer} {c : Char} {r : List Char} {ts : List Token}
    (hsettle : l.settle? = some l₁) (hrest : l₁.cursor.rest = c :: r)
    (htoken : (l₁.closeBlocks l₁.cursor.column).token? c r = some l₂)
    (hless : l₂.cursor.rest.length < l.cursor.rest.length) (h : l₂.Yields ts) : l.Yields ts := by
  intro fuel hfuel
  obtain ⟨fuel, rfl⟩ := Nat.exists_eq_add_one_of_ne_zero (by omega : fuel ≠ 0)
  rw [run_succ, hsettle, Option.bind_some, hrest]
  simp only [htoken, Option.bind_some]
  exact h fuel (by omega)

/-- Lexers that stand at one token read on alike. -/
theorem Yields.congr {l l' : Lexer} {ts : List Token} (hsettle : l.settle? = l'.settle?)
    (hle : l'.cursor.rest.length ≤ l.cursor.rest.length) (h : l'.Yields ts) : l.Yields ts := by
  intro fuel hfuel
  obtain ⟨fuel, rfl⟩ := Nat.exists_eq_add_one_of_ne_zero (by omega : fuel ≠ 0)
  have hread := h (fuel + 1) (by omega)
  rwa [run_succ, ← hsettle, ← run_succ] at hread

variable {indent : Int} {outer : List Int} {ts res : List Token} {i l k : Nat} {r : List Char}

/-- A token can start here. -/
def Visible (r : List Char) : Prop := ∀ c ∈ r.head?, isGap c = false ∧ c ≠ '#'

theorem Visible.solid {r : List Char} (h : Visible r) : Solid r := fun c hc => (h c hc).1

theorem visible_cons {c : Char} (hgap : isGap c = false) (hhash : c ≠ '#') (r : List Char) :
    Visible (c :: r) := by
  intro d hd
  obtain rfl := Option.some.inj hd
  exact ⟨hgap, hhash⟩

theorem takeWhile_blanks (j : Nat) {r : List Char} (hr : Solid r) (tabs : Bool) :
    (blanks j ++ r).takeWhile (fun d => d == ' ' || (tabs && d == '\t')) = blanks j := by
  have hstop : r.takeWhile (fun d => d == ' ' || (tabs && d == '\t')) = [] := by
    cases r with
    | nil => rfl
    | cons c r =>
      have hc := hr c rfl
      simp only [isGap, isSpaceOrTab, Bool.or_eq_false_iff] at hc
      simp [hc.1.1, hc.1.2]
  rw [List.takeWhile_append_of_pos, hstop, List.append_nil]
  intro c hc
  simp [List.eq_of_mem_replicate hc]

/-- The blanks in front of a token are passed. -/
theorem skipToToken_blanks (j : Nat) (hr : Visible r) (fuel : Nat) (allowed : Bool)
    (cand : Option Candidate) :
    skipToToken (fuel + 1) (laid ⟨blanks j ++ r, i, l, k⟩ indent outer allowed cand ts) =
      laid ⟨r, i + j, l, k + j⟩ indent outer allowed cand ts := by
  have hrest : (blanks j ++ r).drop j = r := List.drop_left' (length_blanks j)
  have hskip : ((⟨blanks j ++ r, i, l, k⟩ : Cursor).skipWhile fun d =>
      d == ' ' || ((false || !allowed) && d == '\t')) = ⟨r, i + j, l, k + j⟩ := by
    rw [Cursor.skipWhile, Cursor.takeWhile, takeWhile_blanks j hr.solid, length_blanks]
    simp [Cursor.advance, hrest]
  have hcomment : (⟨r, i + j, l, k + j⟩ : Cursor).skipComment = ⟨r, i + j, l, k + j⟩ := by
    have hhash : (r.head? == some '#') = false := by
      cases r with
      | nil => rfl
      | cons c r => simpa using (hr c rfl).2
    simp [Cursor.skipComment, hhash]
  rw [skipToToken]
  simp only [cursor_laid, inFlow_laid, keyAllowed_laid, hskip, hcomment, moveTo_laid]
  cases r with
  | nil => rfl
  | cons c r =>
    have hbreak : isBreak c = false := isBreak_of_isGap (hr.solid c rfl)
    simp [hbreak]

/-- A line end is passed, and a key may start behind it. -/
theorem skipToToken_newline (fuel : Nat) (allowed : Bool) (cand : Option Candidate) :
    skipToToken (fuel + 1) (laid ⟨'\n' :: r, i, l, k⟩ indent outer allowed cand ts) =
      skipToToken fuel (laid ⟨r, i + 1, l + 1, 0⟩ indent outer true cand ts) := by
  cases allowed <;> rfl

theorem line_skipComment (c : Cursor) : c.skipComment.line = c.line := by
  unfold Cursor.skipComment
  split <;> rfl

theorem line_le_nextLine (c : Cursor) : c.line ≤ c.nextLine.line := by
  unfold Cursor.nextLine
  split <;> simp

/-- What is passed in front of a token does not depend on the candidate, and no line comes back. -/
theorem skipToToken_laid (indent : Int) (outer : List Int) (ts : List Token) (fuel : Nat)
    (c : Cursor) (allowed : Bool) :
    ∃ c' allowed', c.line ≤ c'.line ∧ ∀ cand,
      skipToToken fuel (laid c indent outer allowed cand ts) =
        laid c' indent outer allowed' cand ts := by
  induction fuel generalizing c allowed with
  | zero => exact ⟨c, allowed, Nat.le_refl _, fun _ => rfl⟩
  | succ fuel ih =>
    have hstep : ∀ cand, skipToToken (fuel + 1) (laid c indent outer allowed cand ts) = _ :=
      fun cand => by rw [skipToToken]
    simp only [cursor_laid, inFlow_laid, keyAllowed_laid, moveTo_laid, allowKey_laid] at hstep
    obtain ⟨next, hnext⟩ : ∃ next, next = (c.skipWhile fun d =>
      d == ' ' || ((false || !allowed) && d == '\t')).skipComment := ⟨_, rfl⟩
    have hline : c.line = next.line := by rw [hnext, line_skipComment]; rfl
    simp only [← hnext] at hstep
    cases hrest : next.rest with
    | nil =>
      refine ⟨next, allowed, Nat.le_of_eq hline, fun cand => ?_⟩
      rw [hstep cand, hrest]
    | cons d r =>
      by_cases hd : isBreak d = true
      · obtain ⟨c', allowed', hle, h⟩ := ih next.nextLine (!false || allowed)
        refine ⟨c', allowed', ?_, fun cand => ?_⟩
        · exact Nat.le_trans (hline ▸ line_le_nextLine next) hle
        · rw [hstep cand, hrest]
          simp only [hd, if_true]
          exact h cand
      · refine ⟨next, allowed, Nat.le_of_eq hline, fun cand => ?_⟩
        rw [hstep cand, hrest]
        simp only [hd, Bool.false_eq_true, if_false]

theorem dropStale?_none (c : Cursor) (allowed : Bool) :
    (laid c indent outer allowed none ts).dropStale? = some (laid c indent outer allowed none ts) :=
  rfl

theorem dropStale?_stale {c : Cursor} {cand : Candidate} (hline : cand.line < c.line)
    (hfree : cand.required = false) (allowed : Bool) :
    (laid c indent outer allowed (some cand) ts).dropStale? =
      some (laid c indent outer allowed none ts) := by
  simp [dropStale?, laid, hline, hfree]

theorem dropStale?_fresh {c : Cursor} {cand : Candidate} (hline : cand.line = c.line)
    (hindex : c.index ≤ cand.index + 1024) (allowed : Bool) :
    (laid c indent outer allowed (some cand) ts).dropStale? =
      some (laid c indent outer allowed (some cand) ts) := by
  simp [dropStale?, laid, hline, Nat.not_lt.mpr hindex]

theorem settle?_blanks (j : Nat) (hr : Visible r) (allowed : Bool) :
    (laid ⟨blanks j ++ r, i, l, k⟩ indent outer allowed none ts).settle? =
      some (laid ⟨r, i + j, l, k + j⟩ indent outer allowed none ts) := by
  rw [settle?, cursor_laid, skipToToken_blanks j hr, dropStale?_none]

theorem settle?_newline (allowed : Bool) (cand : Option Candidate) :
    (laid ⟨'\n' :: r, i, l, k⟩ indent outer allowed cand ts).settle? =
      (laid ⟨r, i + 1, l + 1, 0⟩ indent outer true cand ts).settle? := by
  rw [settle?, cursor_laid, List.length_cons, skipToToken_newline]
  rfl

theorem settle?_stale {c : Cursor} {cand : Candidate} (hline : cand.line < c.line)
    (hfree : cand.required = false) (allowed : Bool) :
    (laid c indent outer allowed (some cand) ts).settle? =
      (laid c indent outer allowed none ts).settle? := by
  obtain ⟨c', allowed', hle, hskip⟩ :=
    skipToToken_laid indent outer ts (c.rest.length + 1) c allowed
  rw [settle?, settle?, cursor_laid, cursor_laid, hskip, hskip,
    dropStale?_stale (Nat.lt_of_lt_of_le hline hle) hfree, dropStale?_none]

/-- Behind a line end the reading goes on with the next line. -/
theorem Yields.newline (allowed : Bool) (cand : Option Candidate)
    (h : (laid ⟨r, i + 1, l + 1, 0⟩ indent outer true cand ts).Yields res) :
    (laid ⟨'\n' :: r, i, l, k⟩ indent outer allowed cand ts).Yields res :=
  h.congr (settle?_newline allowed cand) (Nat.le_succ _)

/-- On a later line nothing is left of a candidate that is not required. -/
theorem Yields.stale {c : Cursor} {cand : Candidate} (hline : cand.line < c.line)
    (hfree : cand.required = false) {allowed : Bool}
    (h : (laid c indent outer allowed none ts).Yields res) :
    (laid c indent outer allowed (some cand) ts).Yields res :=
  h.congr (settle?_stale hline hfree allowed) (Nat.le_refl _)

theorem closeBlocks_of_le {c : Cursor} {allowed : Bool} {cand : Option Candidate} {column : Int}
    (h : indent ≤ column) :
    (laid c indent outer allowed cand ts).closeBlocks column =
      laid c indent outer allowed cand ts := by
  simp only [closeBlocks, inFlow_laid, Bool.false_eq_true, if_false, outer_laid]
  cases outer with
  | nil => rfl
  | cons o os => rw [closeBlocksTo, if_neg (by simpa using h)]

theorem closeBlocks_of_lt {c : Cursor} {allowed : Bool} {cand : Option Candidate} {column o : Int}
    (h : column < indent) :
    (laid c indent (o :: outer) allowed cand ts).closeBlocks column =
      (laid c o outer allowed cand (.blockEnd :: ts)).closeBlocks column := by
  simp only [closeBlocks, inFlow_laid, Bool.false_eq_true, if_false, outer_laid]
  rw [closeBlocksTo, if_pos (by simpa using h)]
  rfl

/-- What is left of the text starts no further right than a column, or is nothing. -/
def Below (column : Nat) (r : List Char) : Prop :=
  ∃ m body, r = blanks m ++ body ∧ m ≤ column ∧ Visible body

/-- The rest of the text is read from the start of its first line, however many of the blanks there
have been passed already. -/
def Lines (r : List Char) (indent : Int) (outer : List Int) (ts res : List Token) : Prop :=
  ∀ i l k body, r = blanks k ++ body →
    (laid ⟨body, i, l, k⟩ indent outer true none ts).Yields res

theorem blanks_add (k j : Nat) : blanks (k + j) = blanks k ++ blanks j :=
  List.replicate_add k j ' '

theorem eq_blanks_append {k m : Nat} {r body : List Char} (hbody : Visible body)
    (h : blanks m ++ body = blanks k ++ r) : k ≤ m ∧ r = blanks (m - k) ++ body := by
  induction k generalizing m with
  | zero => exact ⟨Nat.zero_le m, h.symm⟩
  | succ k ih =>
    cases m with
    | zero =>
      have hblank := (hbody ' ' (by
        rw [show body = ' ' :: (blanks k ++ r) from h]
        rfl)).1
      exact absurd hblank (by decide)
    | succ m =>
      obtain ⟨hle, hr⟩ := ih (List.cons.inj h).2
      exact ⟨Nat.succ_le_succ hle, by rw [hr, Nat.succ_sub_succ]⟩

theorem lines_of_visible {m : Nat} {body : List Char} (hbody : Visible body)
    (h : ∀ i l k j, k + j = m →
      (laid ⟨blanks j ++ body, i, l, k⟩ indent outer true none ts).Yields res) :
    Lines (blanks m ++ body) indent outer ts res := by
  intro i l k r hr
  obtain ⟨hle, rfl⟩ := eq_blanks_append hbody hr
  exact h i l k (m - k) (Nat.add_sub_cancel' hle)

/-- Left of the innermost block that block is over. -/
theorem Lines.close {m : Nat} {o : Int} (hr : Below m r) (hm : (m : Int) < indent)
    (h : Lines r o outer (.blockEnd :: ts) res) : Lines r indent (o :: outer) ts res := by
  obtain ⟨m', body, rfl, hle, hbody⟩ := hr
  -- both lexers settle at the same token, where one block more is over for the inner one
  refine lines_of_visible hbody fun i l k j hk fuel hfuel => ?_
  obtain ⟨fuel, rfl⟩ := Nat.exists_eq_add_one_of_ne_zero (by omega : fuel ≠ 0)
  have hread := h i l k (blanks j ++ body) (by rw [← hk, blanks_add, List.append_assoc])
    (fuel + 1) hfuel
  rw [run_succ, settle?_blanks j hbody, Option.bind_some] at hread ⊢
  simp only [cursor_laid] at hread ⊢
  cases body with
  | nil =>
    simp only at hread ⊢
    rwa [closeBlocks_of_lt (by omega)]
  | cons c body =>
    simp only at hread ⊢
    rwa [closeBlocks_of_lt (by omega)]

/-- At the end of the text the last block is over. -/
theorem lines_end {n : Nat} :
    Lines [] n [-1] ts (ts.reverse ++ [.blockEnd]) := by
  intro i l k body hbody fuel hfuel
  obtain ⟨fuel, rfl⟩ := Nat.exists_eq_add_one_of_ne_zero (by omega : fuel ≠ 0)
  obtain ⟨-, rfl⟩ := List.append_eq_nil_iff.mp hbody.symm
  have hvisible : Visible [] := fun c hc => by cases hc
  have hsettle : (laid ⟨[], i, l, k⟩ n [-1] true none ts).settle? = _ :=
    settle?_blanks 0 hvisible true
  rw [run_succ, hsettle, Option.bind_some]
  simp only [cursor_laid]
  rw [closeBlocks_of_lt (by omega), closeBlocks_of_le (by omega)]
  simp [dropCandidate?]

end Lexer

end Scaffold.Yaml
