import Scaffold.Proofs.Numerals
import Scaffold.Yaml.Lexeme
import Scaffold.Yaml.Writer

/-!
Plain scalars are read back. A text that may stand without quotes is read run by run, with the
blanks between the runs, up to the end of its line; the line break and the indentation behind it are
the gap that ends it.
-/

namespace Scaffold.Yaml

/-- A line break that is not turned into another character when it is read. -/
def IsKeptBreak (c : Char) : Prop := c = '\n' ∨ c = '\u2028' ∨ c = '\u2029'

theorem IsKeptBreak.isBreak {c : Char} (h : IsKeptBreak c) : isBreak c = true := by
  rcases h with rfl | rfl | rfl <;> rfl

theorem IsKeptBreak.normalBreak_eq {c : Char} (h : IsKeptBreak c) : normalBreak c = c := by
  rcases h with rfl | rfl | rfl <;> rfl

theorem IsKeptBreak.nextLine_eq {c : Char} (h : IsKeptBreak c) (r : List Char)
    (i l k : Nat) : (⟨c :: r, i, l, k⟩ : Cursor).nextLine = ⟨r, i + 1, l + 1, 0⟩ := by
  rcases h with rfl | rfl | rfl <;> rfl

theorem isKeptBreak_of_isPrintable {c : Char} (hb : isBreak c = true) (hp : isPrintable c = true) :
    IsKeptBreak c := by
  simp only [isBreak, Bool.or_eq_true, beq_iff_eq] at hb
  rcases hb with (((rfl | rfl) | rfl) | rfl) | rfl
  · exact .inl rfl
  · exact absurd hp (by decide)
  · exact absurd hp (by decide)
  · exact .inr (.inl rfl)
  · exact .inr (.inr rfl)

theorem length_blanks (n : Nat) : (blanks n).length = n := List.length_replicate

theorem blanks_succ (n : Nat) : blanks (n + 1) = ' ' :: blanks n := rfl

theorem exists_eq_concat {cs : List Char} (h : cs ≠ []) : ∃ front c, cs = front ++ [c] :=
  ⟨_, _, (List.dropLast_append_getLast h).symm⟩

/-- No gap goes on here. -/
def Solid (r : List Char) : Prop := ∀ c ∈ r.head?, isGap c = false

theorem gap_stop {r : List Char} (hr : Solid r) (fuel margin : Nat) (g : Gap) (i l k : Nat) :
    gap (fuel + 1) margin g ⟨r, i, l, k⟩ = some (g, ⟨r, i, l, k⟩) := by
  cases r with
  | nil => rfl
  | cons c r =>
    have hc := hr c rfl
    simp only [isGap, Bool.or_eq_false_iff] at hc
    simp [gap, hc]

theorem gap_blanks (n : Nat) {r : List Char} (hr : Solid r) (fuel : Nat) (hfuel : n < fuel)
    (margin : Nat) (bs : List Char) (i l k : Nat) :
    gap fuel margin { blanks := bs } ⟨blanks n ++ r, i, l, k⟩ =
      some ({ blanks := bs ++ blanks n }, ⟨r, i + n, l, k + n⟩) := by
  induction n generalizing bs i k fuel with
  | zero =>
    obtain ⟨fuel, rfl⟩ := Nat.exists_eq_add_one_of_ne_zero (Nat.ne_of_gt hfuel)
    simp [blanks, gap_stop hr]
  | succ n ih =>
    obtain ⟨fuel, rfl⟩ := Nat.exists_eq_add_one_of_ne_zero (by omega : fuel ≠ 0)
    have hstep : gap (fuel + 1) margin { blanks := bs } ⟨blanks (n + 1) ++ r, i, l, k⟩ =
        gap fuel margin { blanks := bs ++ [' '] } ⟨blanks n ++ r, i + 1, l, k + 1⟩ := rfl
    rw [hstep, ih fuel (by omega)]
    simp [blanks, List.replicate_succ, Nat.add_assoc, Nat.add_comm 1 n]

/-- Breaks, and the blanks that indent the line behind them. -/
theorem gap_indent (n : Nat) {r : List Char} (hr : Solid r) (fuel : Nat) (hfuel : n < fuel)
    (margin : Nat) {g : Gap} (hg : g.breaks ≠ []) (i l k : Nat) :
    gap fuel margin g ⟨blanks n ++ r, i, l, k⟩ = some (g, ⟨r, i + n, l, k + n⟩) := by
  have hempty : g.breaks.isEmpty = false := by simpa using hg
  induction n generalizing i k fuel with
  | zero =>
    obtain ⟨fuel, rfl⟩ := Nat.exists_eq_add_one_of_ne_zero (Nat.ne_of_gt hfuel)
    exact gap_stop hr fuel margin g i l k
  | succ n ih =>
    obtain ⟨fuel, rfl⟩ := Nat.exists_eq_add_one_of_ne_zero (by omega : fuel ≠ 0)
    have hstep : gap (fuel + 1) margin g ⟨blanks (n + 1) ++ r, i, l, k⟩ =
        gap fuel margin g ⟨blanks n ++ r, i + 1, l, k + 1⟩ := by
      simp [gap, blanks, List.replicate_succ, isSpaceOrTab, hempty, Cursor.advance]
    rw [hstep, ih fuel (by omega)]
    simp only [Nat.add_assoc, Nat.add_comm 1 n]

theorem gap_breaks {bs : List Char} (hbs : ∀ b ∈ bs, IsKeptBreak b) (hne : bs ≠ []) (n : Nat)
    {r : List Char} (hr : Solid r) (fuel : Nat) (hfuel : bs.length + n < fuel) (margin : Nat)
    (g : Gap) (i l k : Nat) :
    ∃ i' l', l < l' ∧ gap fuel margin g ⟨bs ++ (blanks n ++ r), i, l, k⟩ =
      some ({ g with breaks := g.breaks ++ bs }, ⟨r, i', l', n⟩) := by
  induction bs generalizing g i l k fuel with
  | nil => exact absurd rfl hne
  | cons b bs ih =>
    obtain ⟨fuel, rfl⟩ := Nat.exists_eq_add_one_of_ne_zero (by omega : fuel ≠ 0)
    have hb : IsKeptBreak b := hbs b List.mem_cons_self
    have hspace : isSpaceOrTab b = false := by rcases hb with rfl | rfl | rfl <;> rfl
    have hstep : gap (fuel + 1) margin g ⟨b :: (bs ++ (blanks n ++ r)), i, l, k⟩ =
        gap fuel margin { g with breaks := g.breaks ++ [b] }
          ⟨bs ++ (blanks n ++ r), i + 1, l + 1, 0⟩ := by
      simp [gap, hspace, hb.isBreak, hb.normalBreak_eq, hb.nextLine_eq]
    rw [List.length_cons] at hfuel
    rw [List.cons_append, hstep]
    cases bs with
    | nil =>
      have hindent := gap_indent n hr fuel (by simp at hfuel; omega) margin
        (g := { g with breaks := g.breaks ++ [b] }) (by simp) (i + 1) (l + 1) 0
      exact ⟨i + 1 + n, l + 1, Nat.lt_succ_self l, by simpa using hindent⟩
    | cons b' bs =>
      obtain ⟨i', l', hl, h⟩ := ih (fun x hx => hbs x (List.mem_cons_of_mem b hx)) (by simp)
        fuel (by omega) { g with breaks := g.breaks ++ [b] } (i + 1) (l + 1) 0
      exact ⟨i', l', by omega, by rw [h]; simp⟩

/-- Blanks within a line are a gap as they are. -/
theorem gap_eq_blanks (n : Nat) {r : List Char} (hr : Solid r) (margin i l k : Nat) :
    gap ((blanks n ++ r).length + 1) margin {} ⟨blanks n ++ r, i, l, k⟩ =
      some ({ blanks := blanks n }, ⟨r, i + n, l, k + n⟩) :=
  gap_blanks n hr _ (by simp only [List.length_append, length_blanks]; omega) margin [] i l k

/-- Breaks that are kept are a gap as they are, however far the line behind them is indented. -/
theorem gap_eq_breaks {bs : List Char} (hbs : ∀ b ∈ bs, IsKeptBreak b) (hne : bs ≠ []) (n : Nat)
    {r : List Char} (hr : Solid r) (margin i l k : Nat) :
    ∃ i' l', l < l' ∧
      gap ((bs ++ (blanks n ++ r)).length + 1) margin {} ⟨bs ++ (blanks n ++ r), i, l, k⟩ =
        some ({ breaks := bs }, ⟨r, i', l', n⟩) :=
  gap_breaks hbs hne n hr _ (by simp only [List.length_append, length_blanks]; omega) margin {} i l
    k

theorem plainRun_append {run more r : List Char} {before d : Char}
    (hrun : ∀ c ∈ run, isGap c = false) (hmark : hasInnerMark before (run ++ more) = false)
    (hmore : gapAhead more = true) (hd : isGap d = true) :
    plainRun false (run ++ d :: r) = some run := by
  induction run generalizing before with
  | nil => simp [plainRun, hd]
  | cons c run ih =>
    have hsame : gapAhead (run ++ d :: r) = gapAhead (run ++ more) := by
      cases run with
      | nil => simpa [gapAhead, hd] using hmore.symm
      | cons c' run => rfl
    simp only [List.cons_append, hasInnerMark, Bool.or_eq_false_iff] at hmark
    have hrest := ih (fun x hx => hrun x (List.mem_cons_of_mem c hx)) hmark.2
    simp [plainRun, hrun c List.mem_cons_self, hsame, hmark.1.1, hrest]

theorem hasInnerMark_of_append {xs : List Char} {before y : Char} {ys : List Char}
    (h : hasInnerMark before (xs ++ y :: ys) = false) : hasInnerMark y ys = false := by
  induction xs generalizing before with
  | nil =>
    simp only [List.nil_append, hasInnerMark, Bool.or_eq_false_iff] at h
    exact h.2
  | cons x xs ih =>
    simp only [List.cons_append, hasInnerMark, Bool.or_eq_false_iff] at h
    exact ih h.2

theorem exists_eq_blanks_append (cs : List Char) :
    ∃ n r, cs = blanks n ++ r ∧ r.head? ≠ some ' ' := by
  induction cs with
  | nil => exact ⟨0, [], rfl, by simp⟩
  | cons c cs ih =>
    by_cases hc : c = ' '
    · obtain ⟨n, r, rfl, hr⟩ := ih
      exact ⟨n + 1, r, by rw [hc]; rfl, hr⟩
    · exact ⟨0, c :: cs, rfl, by simpa using hc⟩

/-- The front of a text up to the first character of a kind. -/
theorem exists_eq_run_append (p : Char → Bool) (cs : List Char) :
    ∃ run r, cs = run ++ r ∧ (∀ c ∈ run, p c = false) ∧ ∀ c ∈ r.head?, p c = true := by
  induction cs with
  | nil => exact ⟨[], [], rfl, by simp, by simp⟩
  | cons c cs ih =>
    by_cases hc : p c = true
    · exact ⟨[], c :: cs, rfl, by simp, by simpa using hc⟩
    · obtain ⟨run, r, rfl, hrun, hr⟩ := ih
      refine ⟨c :: run, r, rfl, ?_, hr⟩
      simpa [hc] using hrun

/-- The text can be written without quotes on one line behind its key, whatever it means. -/
structure Bare (cs : List Char) : Prop where
  ne_nil : cs ≠ []
  solid : Solid cs
  last_ne : cs.getLast? ≠ some ' '
  gap_eq : ∀ c ∈ cs, isGap c = true → c = ' '
  unmarked : hasInnerMark ' ' cs = false

theorem blanks_append_blank (n : Nat) (r : List Char) :
    blanks n ++ ' ' :: r = ' ' :: (blanks n ++ r) := by
  induction n with
  | zero => rfl
  | succ n ih => exact congrArg (List.cons ' ') ih

theorem Solid.append {cs : List Char} (h : Solid cs) (hne : cs ≠ []) (r : List Char) :
    Solid (cs ++ r) := by
  cases cs with
  | nil => exact absurd rfl hne
  | cons c cs => exact h

/-- What stands behind the first blanks is bare again. -/
theorem Bare.tail {run cs : List Char} {n : Nat} (h : Bare (run ++ ' ' :: (blanks n ++ cs)))
    (hcs : cs.head? ≠ some ' ') : Bare cs := by
  have hsplit : run ++ ' ' :: (blanks n ++ cs) = run ++ blanks n ++ ' ' :: cs := by
    rw [List.append_assoc, blanks_append_blank]
  have hne : cs ≠ [] := by
    rintro rfl
    apply h.last_ne
    rw [hsplit]
    simp
  have hgaps : ∀ c ∈ cs, isGap c = true → c = ' ' := fun c hc => h.gap_eq c (by simp [hc])
  refine ⟨hne, ?_, ?_, hgaps, ?_⟩
  · intro c hc
    by_contra hgap
    rw [hgaps c (List.mem_of_mem_head? hc) (by simpa using hgap)] at hc
    exact hcs hc
  · have hlast := h.last_ne
    rw [hsplit] at hlast
    obtain ⟨c, cs, rfl⟩ := List.exists_cons_of_ne_nil hne
    simpa using hlast
  · have hmark := h.unmarked
    rw [hsplit] at hmark
    exact hasInnerMark_of_append hmark

theorem atRule_of_column (r : List Char) (i l : Nat) {k : Nat} (hk : 0 < k) (m : Char) :
    (⟨r, i, l, k⟩ : Cursor).atRule m = false := by
  simp [Cursor.atRule, Nat.ne_of_gt hk]

theorem atRule_of_ne {c m : Char} (h : c ≠ m) (r : List Char) (i l k : Nat) :
    (⟨c :: r, i, l, k⟩ : Cursor).atRule m = false := by
  have hc : (c == m) = false := by simpa using h
  rcases r with _ | ⟨y, _ | ⟨z, r⟩⟩ <;> simp [Cursor.atRule, hc]

theorem atDocumentMark_of_column (r : List Char) (i l : Nat) {k : Nat} (hk : 0 < k) :
    (⟨r, i, l, k⟩ : Cursor).atDocumentMark = false := by
  rw [Cursor.atDocumentMark, atRule_of_column r i l hk, atRule_of_column r i l hk]
  rfl

/-- One run and the gap behind it. -/
theorem plainRuns_run {run r : List Char} {d : Char} {indent i l k : Nat} {g : Gap} {next : Cursor}
    (fuel : Nat) (pending : Gap) (hne : run ≠ []) (hhash : run.head? ≠ some '#')
    (hrun : plainRun false (run ++ d :: r) = some run) (hd : isGap d = true) (hk : 0 < k)
    (hgap : gap (r.length + 2) (indent + 1) {} ⟨d :: r, i + run.length, l, k + run.length⟩ =
      some (g, next)) :
    plainRuns (fuel + 1) false indent pending ⟨run ++ d :: r, i, l, k⟩ =
      if next.column ≤ indent then some ⟨pending.text ++ run, !g.breaks.isEmpty, next⟩
      else (plainRuns fuel false indent g next).map fun p =>
        { p with text := pending.text ++ run ++ p.text } := by
  have hfirst : ((run ++ d :: r).head? == some '#') = false := by
    cases run with
    | nil => exact absurd rfl hne
    | cons c run => simpa using hhash
  have hempty : run.isEmpty = false := by simpa using hne
  have hmargin : ((indent : Int) + 1).toNat = indent + 1 := by omega
  rw [plainRuns]
  simp only [atDocumentMark_of_column _ _ _ hk, hfirst, hrun, hempty, Cursor.advance,
    List.drop_left, hd, hmargin, List.length_cons, Bool.or_false, Bool.false_eq_true, if_false,
    if_true, Option.bind_eq_bind, Option.bind_some, hgap, Bool.not_false, Bool.true_and,
    decide_eq_true_eq, Int.ofNat_le]
  by_cases hcolumn : next.column ≤ indent
  · rw [if_pos hcolumn, if_pos hcolumn]
  · rw [if_neg hcolumn, if_neg hcolumn]
    cases plainRuns fuel false indent g next <;> rfl

theorem plainRuns_of_bare (indent m : Nat) (hm : m ≤ indent) {body : List Char}
    (hbody : Solid body) (fuel : Nat) {cs : List Char} (hcs : Bare cs) (hfuel : cs.length < fuel)
    (bs : List Char) (i l k : Nat) (hk : indent < k) :
    ∃ i' l', l < l' ∧
      plainRuns fuel false indent { blanks := bs } ⟨cs ++ '\n' :: (blanks m ++ body), i, l, k⟩ =
        some ⟨bs ++ cs, true, ⟨body, i', l', m⟩⟩ := by
  -- a run is passed at each step; the blanks behind it wait in `bs` until more text follows
  induction fuel generalizing cs bs i l k with
  | zero => omega
  | succ fuel ih =>
    obtain ⟨run, more, rfl, hrun, hmore⟩ := exists_eq_run_append isGap cs
    have hne : run ≠ [] := by
      rintro rfl
      obtain ⟨c, more, rfl⟩ := List.exists_cons_of_ne_nil (by simpa using hcs.ne_nil)
      exact absurd (hcs.solid c rfl) (by simp [hmore c rfl])
    have hhash : run.head? ≠ some '#' := by
      obtain ⟨c, run, rfl⟩ := List.exists_cons_of_ne_nil hne
      intro h
      have hunmarked := hcs.unmarked
      rw [Option.some.inj h] at hunmarked
      simp [hasInnerMark, isGap, isSpaceOrTab] at hunmarked
    cases more with
    | nil =>
      rw [List.append_nil] at hcs hfuel ⊢
      have hplain : plainRun false (run ++ '\n' :: (blanks m ++ body)) = some run :=
        plainRun_append hrun (by simpa using hcs.unmarked : hasInnerMark ' ' (run ++ []) = false)
          rfl rfl
      have hfeed : ∀ b ∈ ['\n'], IsKeptBreak b := List.forall_mem_singleton.mpr (.inl rfl)
      obtain ⟨i', l', hl, hgap⟩ := gap_eq_breaks hfeed (List.cons_ne_nil _ _) m hbody (indent + 1)
        (i + run.length) l (k + run.length)
      refine ⟨i', l', hl, ?_⟩
      rw [plainRuns_run fuel _ hne hhash hplain rfl (by omega) hgap, if_pos hm]
      rfl
    | cons d more =>
      obtain rfl : d = ' ' := hcs.gap_eq d (by simp) (hmore d rfl)
      obtain ⟨j, cs, rfl, hsolid⟩ := exists_eq_blanks_append more
      have hcs' : Bare cs := hcs.tail hsolid
      obtain ⟨rest, hrest_eq⟩ : ∃ rest, cs ++ '\n' :: (blanks m ++ body) = rest := ⟨_, rfl⟩
      have hsolid_rest : Solid rest := hrest_eq ▸ hcs'.solid.append hcs'.ne_nil _
      have hplain : plainRun false (run ++ ' ' :: (blanks j ++ rest)) = some run :=
        plainRun_append hrun hcs.unmarked rfl rfl
      have hgap := gap_eq_blanks (j + 1) hsolid_rest (indent + 1) (i + run.length) l
        (k + run.length)
      obtain ⟨i', l', hl, hrest⟩ := ih hcs' (by simp at hfuel; omega) (blanks (j + 1))
        (i + run.length + (j + 1)) l (k + run.length + (j + 1)) (by omega)
      refine ⟨i', l', hl, ?_⟩
      simp only [List.append_assoc, List.cons_append, hrest_eq] at hrest ⊢
      rw [plainRuns_run fuel _ hne hhash hplain rfl (by omega) hgap, if_neg (by simp; omega), hrest]
      simp [Gap.text, blanks_succ]

theorem isPrintable_of_isSpecial {cs : List Char} (h : isSpecial cs = false) {c : Char}
    (hc : c ∈ cs) : isPrintable c = true := by
  rw [isSpecial, List.any_eq_false] at h
  simpa using h c hc

/-- Of what may be printed, only blanks and some breaks are gaps. -/
theorem gap_cases_of_isPrintable {c : Char} (hgap : isGap c = true) (hp : isPrintable c = true) :
    c = ' ' ∨ IsKeptBreak c := by
  rw [isGap, Bool.or_eq_true] at hgap
  rcases hgap with hgap | hbreak
  · simp only [isSpaceOrTab, Bool.or_eq_true, beq_iff_eq] at hgap
    rcases hgap with rfl | rfl
    · exact .inl rfl
    · exact absurd hp (by decide)
  · exact .inr (isKeptBreak_of_isPrintable hbreak hp)

theorem bare_of_fitsPlain {cs : List Char} (h : fitsPlain cs = true) (hne : cs ≠ []) : Bare cs := by
  obtain ⟨c, r, rfl⟩ := List.exists_cons_of_ne_nil hne
  simp only [fitsPlain, Bool.not_eq_true', Bool.or_eq_false_iff] at h
  obtain ⟨⟨⟨⟨hfirst, hlast⟩, hbreak⟩, hspecial⟩, hmark⟩ := h
  have hgaps : ∀ d ∈ c :: r, isGap d = true → d = ' ' := by
    intro d hd hgap
    refine (gap_cases_of_isPrintable hgap (isPrintable_of_isSpecial hspecial hd)).resolve_right ?_
    intro hkept
    rw [List.any_eq_false] at hbreak
    exact hbreak d hd hkept.isBreak
  simp only [hasMark, Bool.or_eq_false_iff] at hmark
  refine ⟨hne, ?_, ?_, hgaps, ?_⟩
  · intro d hd
    obtain rfl := Option.some.inj hd
    by_contra hgap
    rw [hgaps c List.mem_cons_self (by simpa using hgap)] at hfirst
    exact absurd hfirst (by simp [isSpaceOrBreak])
  · intro h
    rw [h] at hlast
    exact absurd hlast (by decide)
  · have hhash : (c == '#') = false := by
      rw [beq_eq_false_iff_ne]
      rintro rfl
      exact absurd hmark.1.1.2 (by decide)
    have hcolon : (c == ':' && gapAhead r) = false := by
      have hahead := hmark.1.2
      cases hgap : gapAhead r with
      | false => rw [Bool.and_false]
      | true =>
        rw [hgap, Bool.and_true, Bool.or_eq_false_iff, Bool.or_eq_false_iff] at hahead
        rw [hahead.1.2, Bool.false_and]
    simp only [hasInnerMark, hhash, hcolon, Bool.false_and, Bool.or_false, hmark.2]

/-- What a key without quotes may be made of. -/
def isKeyChar (c : Char) : Bool :=
  isPrintable c && !(isGap c || isFirstMark c || c == '?' || c == ':' || c == '-' || c == '.')

theorem ne_of_isKeyChar {c m : Char} (hc : isKeyChar c = true) (hm : isKeyChar m = false) :
    c ≠ m := by
  rintro rfl
  rw [hm] at hc
  exact Bool.false_ne_true hc

theorem isPrintable_of_isKeyChar {c : Char} (hc : isKeyChar c = true) : isPrintable c = true :=
  (Bool.and_eq_true_iff.mp hc).1

theorem isGap_of_isKeyChar {c : Char} (hc : isKeyChar c = true) : isGap c = false := by
  simp only [isKeyChar, Bool.and_eq_true, Bool.not_eq_true', Bool.or_eq_false_iff] at hc
  exact hc.2.1.1.1.1.1

theorem isFirstMark_of_isKeyChar {c : Char} (hc : isKeyChar c = true) : isFirstMark c = false := by
  simp only [isKeyChar, Bool.and_eq_true, Bool.not_eq_true', Bool.or_eq_false_iff] at hc
  exact hc.2.1.1.1.1.2

theorem no_indicator_of_isKeyChar {c : Char} (hc : isKeyChar c = true) :
    (c == '?' || c == ':' || c == '-') = false := by
  simp only [isKeyChar, Bool.and_eq_true, Bool.not_eq_true', Bool.or_eq_false_iff] at hc
  rw [hc.2.1.1.1.2, hc.2.1.1.2, hc.2.1.2]
  rfl

/-- The key needs no quotes, and the colon behind it is in time. -/
structure PlainKey (key : String) : Prop where
  ne_nil : key.toList ≠ []
  length_le : key.toList.length ≤ 1024
  chars : ∀ c ∈ key.toList, isKeyChar c = true

theorem PlainKey.exists_eq_cons {key : String} (h : PlainKey key) :
    ∃ c cs, key.toList = c :: cs ∧ isKeyChar c = true := by
  obtain ⟨c, cs, hcs⟩ := List.exists_cons_of_ne_nil h.ne_nil
  exact ⟨c, cs, hcs, h.chars c (by rw [hcs]; exact List.mem_cons_self)⟩

theorem plainRun_key {cs : List Char} (hcs : ∀ c ∈ cs, isKeyChar c = true) {r : List Char}
    (hr : gapAhead r = true) : plainRun false (cs ++ ':' :: r) = some cs := by
  induction cs with
  | nil => simp [plainRun, hr, isGap, isSpaceOrTab, isBreak]
  | cons c cs ih =>
    have hc := hcs c List.mem_cons_self
    have hcolon : (c == ':') = false := beq_eq_false_iff_ne.mpr (ne_of_isKeyChar hc (by decide))
    simp [plainRun, isGap_of_isKeyChar hc, hcolon, ih fun x hx => hcs x (List.mem_cons_of_mem c hx)]

/-- A key is read up to the colon behind it. -/
theorem PlainKey.plain?_eq {key : String} (h : PlainKey key) {r : List Char}
    (hr : gapAhead r = true) (indent : Int) (i l k : Nat) :
    plain? false indent ⟨key.toList ++ ':' :: r, i, l, k⟩ =
      some ⟨key.toList, false, ⟨':' :: r, i + key.toList.length, l, k + key.toList.length⟩⟩ := by
  have hrun := plainRun_key h.chars hr
  obtain ⟨c, cs, hcs, hc⟩ := h.exists_eq_cons
  have hrule : ∀ m, isKeyChar m = false → (⟨c :: (cs ++ ':' :: r), i, l, k⟩ : Cursor).atRule m =
      false := fun m hm => atRule_of_ne (ne_of_isKeyChar hc hm) _ _ _ _
  have hmark : (⟨c :: (cs ++ ':' :: r), i, l, k⟩ : Cursor).atDocumentMark = false := by
    rw [Cursor.atDocumentMark, hrule '-' (by decide), hrule '.' (by decide)]
    rfl
  have hhash : (c == '#') = false := beq_eq_false_iff_ne.mpr (ne_of_isKeyChar hc (by decide))
  have hcolon : isGap ':' = false := rfl
  rw [hcs, List.cons_append] at hrun ⊢
  rw [plain?, plainRuns]
  simp [hmark, hhash, hrun, Cursor.advance, hcolon, Gap.text]

theorem hasInnerMark_of_isKeyChar {cs : List Char} (h : ∀ c ∈ cs, isKeyChar c = true)
    (before : Char) : hasInnerMark before cs = false := by
  induction cs generalizing before with
  | nil => rfl
  | cons c cs ih =>
    have hc := h c List.mem_cons_self
    have hcolon : (c == ':') = false := beq_eq_false_iff_ne.mpr (ne_of_isKeyChar hc (by decide))
    have hhash : (c == '#') = false := beq_eq_false_iff_ne.mpr (ne_of_isKeyChar hc (by decide))
    simp [hasInnerMark, hcolon, hhash, ih fun x hx => h x (List.mem_cons_of_mem c hx)]

theorem isBreak_of_isGap {c : Char} (hc : isGap c = false) : isBreak c = false := by
  rw [isGap, Bool.or_eq_false_iff] at hc
  exact hc.2

theorem fitsPlain_of_solid {cs : List Char} (h : ∀ c ∈ cs, isGap c = false ∧ isPrintable c = true)
    (hmark : hasMark cs = false) : fitsPlain cs = true := by
  have hblank : ∀ c ∈ cs, isSpaceOrBreak c = false := fun c hc => by
    have hgap := (h c hc).1
    simp only [isGap, isSpaceOrTab, Bool.or_eq_false_iff] at hgap
    rw [isSpaceOrBreak, hgap.1.1, hgap.2]
    rfl
  have hfirst : cs.head?.any isSpaceOrBreak = false := by
    cases hc : cs.head? with
    | none => rfl
    | some c => exact hblank c (List.mem_of_mem_head? hc)
  have hlast : cs.getLast?.any isSpaceOrBreak = false := by
    cases hc : cs.getLast? with
    | none => rfl
    | some c => exact hblank c (List.mem_of_getLast? hc)
  have hbreak : cs.any isBreak = false :=
    List.any_eq_false.mpr fun c hc => by simp [isBreak_of_isGap (h c hc).1]
  have hspecial : isSpecial cs = false :=
    List.any_eq_false.mpr fun c hc => by simp [(h c hc).2]
  rw [fitsPlain, hfirst, hlast, hbreak, hspecial, hmark]
  rfl

theorem startsWithRule_of_ne {c d : Char} (hdash : d ≠ '-') (hdot : d ≠ '.') (ds : List Char) :
    startsWithRule (d :: ds) = false ∧ startsWithRule (c :: d :: ds) = false := by
  constructor
  · unfold startsWithRule
    split <;> simp_all
  · unfold startsWithRule
    split <;> simp_all

/-- Digits with or without a sign need no quotes. -/
theorem fitsPlain_signed {sign ds : List Char} (hsign : sign = [] ∨ sign = ['-']) (hne : ds ≠ [])
    (hds : ∀ c ∈ ds, isKeyChar c = true) : fitsPlain (sign ++ ds) = true := by
  obtain ⟨d, ds, rfl⟩ := List.exists_cons_of_ne_nil hne
  have hd := hds d List.mem_cons_self
  have hsolid : ∀ c ∈ d :: ds, isGap c = false ∧ isPrintable c = true := fun c hc =>
    ⟨isGap_of_isKeyChar (hds c hc), isPrintable_of_isKeyChar (hds c hc)⟩
  obtain ⟨hrule, hrule'⟩ := startsWithRule_of_ne (ne_of_isKeyChar hd (by decide))
    (ne_of_isKeyChar hd (by decide)) ds (c := '-')
  rcases hsign with rfl | rfl
  · have hinner : hasInnerMark d ds = false :=
      hasInnerMark_of_isKeyChar (fun c hc => hds c (List.mem_cons_of_mem d hc)) d
    refine fitsPlain_of_solid hsolid ?_
    simp only [List.nil_append, hasMark, hrule, isFirstMark_of_isKeyChar hd,
      no_indicator_of_isKeyChar hd, hinner, Bool.false_and, Bool.or_self]
  · have hahead : gapAhead (d :: ds) = false := isGap_of_isKeyChar hd
    have hfirst : isFirstMark '-' = false := by decide
    refine fitsPlain_of_solid (List.forall_mem_cons.mpr ⟨by decide, hsolid⟩) ?_
    simp only [List.singleton_append, hasMark, hrule', hfirst, hahead,
      hasInnerMark_of_isKeyChar hds, Bool.and_false, Bool.or_self]

theorem fitsPlain_toString (n : Int) : fitsPlain (toString n).toList = true := by
  have hdigits : ∀ c ∈ Number.decimalDigits, isKeyChar c = true :=
    List.all_eq_true.mp (by decide)
  have hds : ∀ c ∈ Number.decimal n.natAbs, isKeyChar c = true := fun c hc =>
    hdigits c (Number.mem_decimalDigits (Number.isDigit_of_mem_decimal hc))
  have hsigned : ∀ sign, sign = [] ∨ sign = ['-'] →
      fitsPlain (sign ++ Number.decimal n.natAbs) = true := fun sign hsign =>
    fitsPlain_signed hsign (Number.decimal_ne_nil _) hds
  rw [Number.toList_toString]
  split
  · exact hsigned ['-'] (.inr rfl)
  · exact hsigned [] (.inl rfl)

end Scaffold.Yaml
