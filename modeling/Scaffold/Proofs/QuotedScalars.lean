import Scaffold.Proofs.PlainScalars

/-!
Quoted scalars are read back. Between the quotes a text is runs of characters, each with a code of
its own, and the gaps between the runs. Double quotes escape every break, so that all gaps are
blanks; single quotes keep some breaks and indent the lines behind them.
-/

namespace Scaffold.Yaml

/-- The code is read as the character, inside quotes of this kind. -/
structure Spells (double : Bool) (code : List Char) (c : Char) : Prop where
  ne_nil : code ≠ []
  quotedRun_append : ∀ (fuel : Nat) (r : List Char) (i l k : Nat),
    quotedRun (fuel + 1) double ⟨code ++ r, i, l, k⟩ =
      (quotedRun fuel double ⟨r, i + code.length, l, k + code.length⟩).map fun p =>
        (c :: p.1, p.2)

theorem spells_self {double : Bool} {c : Char} (hgap : isGap c = false)
    (hquote : c ≠ if double then '"' else '\'') (hback : double = true → c ≠ '\\') :
    Spells double [c] c := by
  refine ⟨by simp, fun fuel r i l k => ?_⟩
  have hstep : quotedRun (fuel + 1) double ⟨c :: r, i, l, k⟩ =
      (quotedRun fuel double ⟨r, i + 1, l, k + 1⟩).bind fun p => some (c :: p.1, p.2) := by
    cases double <;> simp_all [quotedRun, Cursor.advance]
  rw [List.singleton_append, hstep]
  cases quotedRun fuel double ⟨r, i + 1, l, k + 1⟩ <;> rfl

theorem spells_escape {x c : Char} {code : List Char} (hbreak : isBreak x = false)
    (hescape : ∀ r, escape? ('\\' :: x :: (code ++ r)) = some (c, code.length + 2)) :
    Spells true ('\\' :: x :: code) c := by
  refine ⟨by simp, fun fuel r i l k => ?_⟩
  have hgap : isGap '\\' = false := by decide
  have hstep : quotedRun (fuel + 1) true ⟨'\\' :: x :: (code ++ r), i, l, k⟩ =
      (quotedRun fuel true ⟨r, i + (code.length + 2), l, k + (code.length + 2)⟩).bind fun p =>
        some (c :: p.1, p.2) := by
    simp [quotedRun, hgap, hbreak, hescape, Cursor.advance]
  simp only [List.cons_append, hstep, List.length_cons]
  cases quotedRun fuel true _ <;> rfl

theorem spells_pair : Spells false ['\'', '\''] '\'' := by
  refine ⟨by simp, fun fuel r i l k => ?_⟩
  have hgap : isGap '\'' = false := by decide
  have hstep : quotedRun (fuel + 1) false ⟨'\'' :: '\'' :: r, i, l, k⟩ =
      (quotedRun fuel false ⟨r, i + 2, l, k + 2⟩).bind fun p => some ('\'' :: p.1, p.2) := by
    simp [quotedRun, hgap, Cursor.advance]
  simp only [List.cons_append, List.nil_append, hstep]
  cases quotedRun fuel false _ <;> rfl

theorem escape?_codePoint {x : Char} {width : Nat} (hshort : shortEscape? x = none)
    (hx : escapeWidth? x = some width) (hwidth : 0 < width) {c : Char}
    (hc : c.toNat < Nat.pow 16 width) (r : List Char) :
    escape? ('\\' :: x :: (codePoint width c ++ r)) =
      some (c, (codePoint width c).length + 2) := by
  have hlength : (codePoint width c).length = width := Number.length_hexPadded _ _ _
  have hcode : (codePoint width c ++ r).take width = codePoint width c := by
    rw [List.take_append_of_le_length (by omega), List.take_of_length_le (by omega)]
  have hvalue : Number.digits? 16 (codePoint width c) = some c.toNat :=
    Number.digits?_hexPadded Number.digit?_upperDigit hwidth hc
  have hvalid : c.toNat.isValidChar := c.valid
  simp [escape?, hshort, hx, hcode, hvalue, hlength, hvalid, Nat.add_comm]

/-- Of the gaps only the blank has no name of its own. -/
theorem isGap_eq_false {c : Char} (hc : c ≠ ' ') (hname : shortName? c = none) :
    isGap c = false := by
  by_contra hgap
  simp only [isGap, isSpaceOrTab, isBreak, Bool.not_eq_false, Bool.or_eq_true, beq_iff_eq] at hgap
  rcases hgap with (rfl | rfl) | (((rfl | rfl) | rfl) | rfl) | rfl
  · exact hc rfl
  all_goals cases hname

theorem spells_escaped {c : Char} (hc : c ≠ ' ') : Spells true (escaped c) c := by
  unfold escaped
  cases hname : shortName? c with
  | some x =>
    refine spells_escape ?_ fun r => ?_
    · unfold shortName? at hname
      split at hname <;> cases hname <;> rfl
    · unfold shortName? at hname
      split at hname <;> cases hname <;> rfl
  | none =>
    by_cases hp : isPrintable c = true
    · simp only [hp, if_true]
      refine spells_self ?_ ?_ fun _ => ?_
      · exact isGap_eq_false hc hname
      · rintro rfl
        cases hname
      · rintro rfl
        cases hname
    · simp only [hp, Bool.false_eq_true, if_false]
      split
      · next h => exact spells_escape rfl (escape?_codePoint rfl rfl (by decide) h)
      · split
        · next h => exact spells_escape rfl (escape?_codePoint rfl rfl (by decide) h)
        · exact spells_escape rfl (escape?_codePoint rfl rfl (by decide)
            (Nat.lt_of_lt_of_le c.val.toNat_lt (by decide)))

theorem quotedRun_flatMap {double : Bool} {code : Char → List Char} {run : List Char}
    (hrun : ∀ c ∈ run, Spells double (code c) c) (r : List Char) (fuel i l k : Nat) :
    quotedRun (fuel + run.length) double ⟨run.flatMap code ++ r, i, l, k⟩ =
      (quotedRun fuel double
        ⟨r, i + (run.flatMap code).length, l, k + (run.flatMap code).length⟩).map fun p =>
          (run ++ p.1, p.2) := by
  induction run generalizing i k with
  | nil => simp
  | cons c run ih =>
    have hrest := ih (fun x hx => hrun x (List.mem_cons_of_mem c hx)) (i + (code c).length)
      (k + (code c).length)
    rw [List.flatMap_cons, List.append_assoc, List.length_cons, ← Nat.add_assoc,
      (hrun c List.mem_cons_self).quotedRun_append, hrest, List.length_append]
    simp only [Nat.add_assoc, Option.map_map]
    rfl

theorem length_le_flatMap {code : Char → List Char} {run : List Char}
    (hrun : ∀ c ∈ run, code c ≠ []) : run.length ≤ (run.flatMap code).length := by
  induction run with
  | nil => simp
  | cons c run ih =>
    have hc := List.length_pos_iff.mpr (hrun c List.mem_cons_self)
    have hrest := ih fun x hx => hrun x (List.mem_cons_of_mem c hx)
    simp only [List.flatMap_cons, List.length_cons, List.length_append]
    omega

def quoteMark (double : Bool) : Char := if double then '"' else '\''

theorem quotedRun_quote {double : Bool} {r : List Char} (hr : r.head? ≠ some '\'')
    (fuel i l k : Nat) :
    quotedRun (fuel + 1) double ⟨quoteMark double :: r, i, l, k⟩ =
      some ([], .quote, ⟨r, i + 1, l, k + 1⟩) := by
  have hr' : (r.head? == some '\'') = false := by simpa using hr
  cases double with
  | true => rfl
  | false => simp [quotedRun, quoteMark, isGap, isSpaceOrTab, isBreak, hr', Cursor.advance]

theorem quotedRun_gap {double : Bool} {d : Char} (hd : isGap d = true) (r : List Char)
    (fuel i l k : Nat) :
    quotedRun (fuel + 1) double ⟨d :: r, i, l, k⟩ = some ([], .gap, ⟨d :: r, i, l, k⟩) := by
  simp [quotedRun, hd]

theorem exists_length_eq {double : Bool} {code : Char → List Char} {run : List Char}
    (hrun : ∀ c ∈ run, Spells double (code c) c) (d : Char) (r : List Char) :
    ∃ more, (run.flatMap code ++ d :: r).length + 1 = more + 1 + run.length := by
  have hlength := length_le_flatMap fun c hc => (hrun c hc).ne_nil
  refine ⟨(run.flatMap code ++ d :: r).length - run.length, ?_⟩
  simp only [List.length_append]
  omega

theorem quotedRuns_last {double : Bool} {code : Char → List Char} {run r : List Char}
    (hrun : ∀ c ∈ run, Spells double (code c) c) (hr : r.head? ≠ some '\'') (fuel i l : Nat)
    {k : Nat} (hk : 0 < k) :
    quotedRuns (fuel + 1) double ⟨run.flatMap code ++ quoteMark double :: r, i, l, k⟩ =
      some (run, ⟨r, i + (run.flatMap code).length + 1, l, k + (run.flatMap code).length + 1⟩) := by
  obtain ⟨more, hmore⟩ := exists_length_eq hrun (quoteMark double) r
  have hread := quotedRun_flatMap hrun (quoteMark double :: r) (more + 1) i l k
  rw [quotedRun_quote hr, ← hmore] at hread
  have hempty : (run.flatMap code ++ quoteMark double :: r).isEmpty = false := by simp
  rw [quotedRuns]
  simp only [atDocumentMark_of_column _ _ _ hk, hempty, Bool.or_self, Bool.false_eq_true, if_false,
    hread, Option.map_some, Option.bind_eq_bind, Option.bind_some, List.append_nil]

/-- A run, and the gap between it and the next. -/
theorem quotedRuns_more {double : Bool} {code : Char → List Char} {run r : List Char} {d : Char}
    (hrun : ∀ c ∈ run, Spells double (code c) c) (hd : isGap d = true) (fuel i l : Nat)
    {k : Nat} (hk : 0 < k) {g : Gap} {next : Cursor}
    (hgap : gap (r.length + 2) 0 {} ⟨d :: r, i + (run.flatMap code).length, l,
      k + (run.flatMap code).length⟩ = some (g, next)) :
    quotedRuns (fuel + 1) double ⟨run.flatMap code ++ d :: r, i, l, k⟩ =
      (quotedRuns fuel double next).map fun p => (run ++ g.text ++ p.1, p.2) := by
  obtain ⟨more, hmore⟩ := exists_length_eq hrun d r
  have hread := quotedRun_flatMap hrun (d :: r) (more + 1) i l k
  rw [quotedRun_gap hd, ← hmore] at hread
  have hempty : (run.flatMap code ++ d :: r).isEmpty = false := by simp
  rw [quotedRuns]
  simp only [atDocumentMark_of_column _ _ _ hk, hempty, Bool.or_self, Bool.false_eq_true, if_false,
    hread, Option.map_some, Option.bind_eq_bind, Option.bind_some, List.append_nil,
    List.length_cons, hgap]
  cases quotedRuns fuel double next <;> rfl

theorem flatMap_escaped_blanks (n : Nat) : (blanks n).flatMap escaped = blanks n := by
  induction n with
  | zero => rfl
  | succ n ih => exact congrArg (List.cons ' ') ih

theorem solid_escaped {c : Char} (hc : c ≠ ' ') (r : List Char) : Solid (escaped c ++ r) := by
  unfold escaped
  cases hname : shortName? c with
  | some x => exact fun d hd => by cases hd; rfl
  | none =>
    have hgap := isGap_eq_false hc hname
    simp only
    split
    · exact fun d hd => by cases hd; exact hgap
    · split
      · exact fun d hd => by cases hd; rfl
      · split <;> exact fun d hd => by cases hd; rfl

theorem escaped_ne_nil (c : Char) : escaped c ≠ [] := by
  unfold escaped
  split
  · simp
  · split
    · simp
    · split
      · simp
      · split <;> simp

/-- Behind its opening quote, a text in double quotes is read back. -/
theorem quotedRuns_double {r : List Char} (hr : r.head? ≠ some '\'') (fuel : Nat) {cs : List Char}
    (hfuel : cs.length < fuel) (i l k : Nat) (hk : 0 < k) :
    ∃ i' k', quotedRuns fuel true ⟨cs.flatMap escaped ++ '"' :: r, i, l, k⟩ =
      some (cs, ⟨r, i', l, k'⟩) := by
  -- a run is passed at each step with the blanks behind it, so that `cs` gets shorter
  induction fuel generalizing cs i k with
  | zero => omega
  | succ fuel ih =>
    obtain ⟨run, more, rfl, hrun, hmore⟩ := exists_eq_run_append (· == ' ') cs
    have hspells : ∀ c ∈ run, Spells true (escaped c) c := fun c hc =>
      spells_escaped (by simpa using hrun c hc)
    cases more with
    | nil =>
      rw [List.append_nil]
      exact ⟨_, _, quotedRuns_last hspells hr fuel i l hk⟩
    | cons d more =>
      obtain rfl : d = ' ' := by simpa using hmore d rfl
      obtain ⟨j, cs, rfl, hhead⟩ := exists_eq_blanks_append more
      have hsolid : Solid (cs.flatMap escaped ++ '"' :: r) := by
        cases cs with
        | nil => exact fun d hd => by cases hd; rfl
        | cons c cs =>
          rw [List.flatMap_cons, List.append_assoc]
          exact solid_escaped (by simpa using hhead) _
      have hgap := gap_eq_blanks (j + 1) hsolid 0 (i + (run.flatMap escaped).length) l
        (k + (run.flatMap escaped).length)
      rw [blanks_succ, List.cons_append] at hgap
      obtain ⟨i', k', hrest⟩ := ih (by simp at hfuel; omega : cs.length < fuel)
        (i + (run.flatMap escaped).length + (j + 1)) (k + (run.flatMap escaped).length + (j + 1))
        (by omega)
      refine ⟨i', k', ?_⟩
      have hcode : (run ++ ' ' :: (blanks j ++ cs)).flatMap escaped ++ '"' :: r =
          run.flatMap escaped ++ ' ' :: (blanks j ++ (cs.flatMap escaped ++ '"' :: r)) := by
        simp only [List.flatMap_append, List.flatMap_cons, flatMap_escaped_blanks,
          List.append_assoc]
        rfl
      rw [hcode, quotedRuns_more hspells rfl fuel i l hk hgap, hrest]
      simp [Gap.text]

theorem quoted?_doubleQuoted (cs : List Char) {r : List Char} (hr : r.head? ≠ some '\'')
    (i l k : Nat) :
    ∃ i' k', quoted? true ⟨doubleQuoted cs ++ r, i, l, k⟩ = some (cs, ⟨r, i', l, k'⟩) := by
  have hlength : cs.length ≤ (cs.flatMap escaped).length :=
    length_le_flatMap fun c _ => escaped_ne_nil c
  obtain ⟨i', k', h⟩ := quotedRuns_double hr ((doubleQuoted cs ++ r).length + 1)
    (by simp only [doubleQuoted, List.length_append, List.length_cons]; omega :
      cs.length < (doubleQuoted cs ++ r).length + 1) (i + 1) l (k + 1)
    (Nat.succ_pos k)
  refine ⟨i', k', ?_⟩
  rw [quoted?]
  simpa [doubleQuoted, Cursor.advance] using h

theorem hasPair_of_append {p q : Char → Bool} {xs ys : List Char}
    (h : hasPair p q (xs ++ ys) = false) : hasPair p q ys = false := by
  induction xs with
  | nil => exact h
  | cons x xs ih =>
    apply ih
    cases hxs : xs ++ ys with
    | nil => rfl
    | cons y zs =>
      rw [List.cons_append, hxs, hasPair, Bool.or_eq_false_iff] at h
      exact h.2

theorem not_and_of_hasPair {p q : Char → Bool} {xs ys : List Char} {c d : Char}
    (h : hasPair p q (xs ++ c :: d :: ys) = false) : ¬ (p c = true ∧ q d = true) := by
  have hpair := hasPair_of_append h
  rw [hasPair, Bool.or_eq_false_iff] at hpair
  simpa using hpair.1

/-- The text keeps its gaps between single quotes. -/
structure Quotable (cs : List Char) : Prop where
  gap_cases : ∀ c ∈ cs, isGap c = true → c = ' ' ∨ c = '\u2028' ∨ c = '\u2029'
  before : spaceBeforeBreak cs = false
  after : spaceAfterBreak cs = false

theorem Quotable.tail {xs cs : List Char} (h : Quotable (xs ++ cs)) : Quotable cs where
  gap_cases c hc := h.gap_cases c (List.mem_append_right xs hc)
  before := hasPair_of_append h.before
  after := hasPair_of_append h.after

/-- Behind a blank or a break that no other follows, no gap goes on. -/
theorem Quotable.solid_behind {xs cs : List Char} {d : Char} (h : Quotable (xs ++ d :: cs))
    (hblank : d = ' ' → cs.head? ≠ some ' ')
    (hbreak : isBreak d = true → ∀ c ∈ cs.head?, isBreak c = false) (hd : isGap d = true) :
    Solid cs := by
  intro c hc
  obtain ⟨t, rfl⟩ : ∃ t, cs = c :: t := by
    cases cs with
    | nil => cases hc
    | cons c' t => exact ⟨t, by cases hc; rfl⟩
  by_contra hgap
  have hdcases := h.gap_cases d (by simp) hd
  have hccases := h.gap_cases c (by simp) (by simpa using hgap)
  have hbefore := not_and_of_hasPair h.before
  have hafter := not_and_of_hasPair h.after
  rcases hdcases with rfl | hd'
  · rcases hccases with rfl | rfl | rfl
    · exact hblank rfl rfl
    · exact hbefore ⟨rfl, rfl⟩
    · exact hbefore ⟨rfl, rfl⟩
  · have hdbreak : isBreak d = true := by rcases hd' with rfl | rfl <;> rfl
    rcases hccases with rfl | rfl | rfl
    · exact hafter ⟨hdbreak, rfl⟩
    · exact absurd (hbreak hdbreak _ rfl) (by decide)
    · exact absurd (hbreak hdbreak _ rfl) (by decide)

def singleCode (c : Char) : List Char := if c == '\'' then ['\'', '\''] else [c]

theorem spells_singleCode {c : Char} (hc : isGap c = false) : Spells false (singleCode c) c := by
  unfold singleCode
  by_cases h : c = '\''
  · subst h
    exact spells_pair
  · simp only [beq_iff_eq, h, if_false]
    exact spells_self hc h (by simp)

theorem singleBody_run (n : Nat) {run : List Char} (hrun : ∀ c ∈ run, isBreak c = false)
    (more : List Char) :
    singleBody n false (run ++ more) = run.flatMap singleCode ++ singleBody n false more := by
  induction run with
  | nil => rfl
  | cons c run ih =>
    have hrest := ih fun x hx => hrun x (List.mem_cons_of_mem c hx)
    simp [singleBody, hrun c List.mem_cons_self, hrest, singleCode]

theorem singleBody_blanks (n m : Nat) (more : List Char) :
    singleBody n false (blanks m ++ more) = blanks m ++ singleBody n false more := by
  induction m with
  | zero => rfl
  | succ m ih =>
    have hstep : singleBody n false (blanks (m + 1) ++ more) =
        ' ' :: singleBody n false (blanks m ++ more) := rfl
    rw [hstep, ih]
    rfl

theorem singleBody_breaks (n : Nat) {b : Char} (hb : isBreak b = true) {bs : List Char}
    (hbs : ∀ c ∈ bs, isBreak c = true) (behind : Bool) (more : List Char) :
    singleBody n behind (b :: (bs ++ more)) = b :: (bs ++ singleBody n true more) := by
  induction bs generalizing b behind with
  | nil => simp [singleBody, hb]
  | cons c bs ih =>
    have hrest := ih (hbs c List.mem_cons_self) (fun x hx => hbs x (List.mem_cons_of_mem c hx)) true
    rw [List.cons_append, List.cons_append, singleBody, if_pos hb, hrest]

theorem singleBody_indented (n : Nat) {cs : List Char} (hcs : ∀ c ∈ cs.head?, isBreak c = false) :
    singleBody n true cs = blanks n ++ singleBody n false cs := by
  cases cs with
  | nil => simp [singleBody]
  | cons c cs => simp [singleBody, hcs c rfl]

theorem solid_singleBody (n : Nat) {cs : List Char} (hcs : Solid cs) (r : List Char) :
    Solid (singleBody n false cs ++ '\'' :: r) := by
  cases cs with
  | nil => exact fun d hd => by cases hd; rfl
  | cons c cs =>
    have hgap := hcs c rfl
    rw [singleBody, if_neg (by simp [isBreak_of_isGap hgap])]
    intro d hd
    by_cases h : c = '\''
    · subst h
      cases hd
      rfl
    · simp only [Bool.false_eq_true, if_false, beq_iff_eq, h] at hd
      cases hd
      exact hgap

theorem exists_singleBody_eq_cons (n : Nat) {d : Char} (hd : isGap d = true) (more r : List Char) :
    ∃ code, singleBody n false (d :: more) ++ '\'' :: r = d :: code := by
  have hquote : (d == '\'') = false := by
    rw [beq_eq_false_iff_ne]
    rintro rfl
    exact absurd hd (by decide)
  rw [singleBody]
  split
  · exact ⟨_, rfl⟩
  · exact ⟨_, by simp [hquote]; rfl⟩

/-- A gap that single quotes keep: blanks, or breaks that begin with no line feed. -/
inductive KeptGap : List Char → Prop where
  | inLine (j : Nat) : KeptGap (blanks (j + 1))
  | overLines {b : Char} {bs : List Char} (hfirst : b = '\u2028' ∨ b = '\u2029')
      (hbs : ∀ c ∈ b :: bs, IsKeptBreak c) : KeptGap (b :: bs)

/-- Where a gap starts, all of it is of one kind, and it ends in front of a run or the quote. -/
theorem Quotable.exists_gap {d : Char} {more : List Char} (h : Quotable (d :: more))
    (hd : isGap d = true) : ∃ gs cs, d :: more = gs ++ cs ∧ KeptGap gs ∧ Solid cs := by
  rcases h.gap_cases d List.mem_cons_self hd with rfl | hkept
  · obtain ⟨j, cs, rfl, hhead⟩ := exists_eq_blanks_append more
    refine ⟨blanks (j + 1), cs, rfl, .inLine j, ?_⟩
    rw [← blanks_append_blank] at h
    exact h.solid_behind (fun _ => hhead) (fun hbreak => nomatch hbreak) rfl
  · have hdbreak : isBreak d = true := by rcases hkept with rfl | rfl <;> rfl
    obtain ⟨bs, cs, rfl, hbs, hhead⟩ := exists_eq_run_append (fun c => !isBreak c) more
    have hbreaks : ∀ c ∈ d :: bs, isBreak c = true :=
      List.forall_mem_cons.mpr ⟨hdbreak, fun c hc => by simpa using hbs c hc⟩
    have hkepts : ∀ c ∈ d :: bs, IsKeptBreak c := fun c hc => by
      have hmem : c ∈ d :: (bs ++ cs) := List.mem_append_left cs hc
      refine .inr ((h.gap_cases c hmem (by simp [isGap, hbreaks c hc])).resolve_left ?_)
      rintro rfl
      exact absurd (hbreaks ' ' hc) (by decide)
    refine ⟨d :: bs, cs, rfl, .overLines hkept hkepts, ?_⟩
    obtain ⟨front, b, hlast⟩ := exists_eq_concat (List.cons_ne_nil d bs)
    have hb : isBreak b = true := hbreaks b (by simp [hlast])
    have hsplit : d :: (bs ++ cs) = front ++ b :: cs := by
      rw [← List.cons_append, hlast, List.append_assoc, List.singleton_append]
    rw [hsplit] at h
    refine h.solid_behind ?_ (fun _ c hc => by simpa using hhead c hc) (by simp [isGap, hb])
    rintro rfl
    exact absurd hb (by decide)

/-- A gap is read as it is, up to the run or the quote behind it. -/
theorem KeptGap.gap_singleBody {gs cs : List Char} (hgs : KeptGap gs) (hcs : Solid cs) {n : Nat}
    (hn : 0 < n) (r : List Char) (i l : Nat) {k : Nat} (hk : 0 < k) :
    ∃ g i' l' k', l ≤ l' ∧ 0 < k' ∧ g.text = gs ∧
      gap ((singleBody n false (gs ++ cs) ++ '\'' :: r).length + 1) 0 {}
        ⟨singleBody n false (gs ++ cs) ++ '\'' :: r, i, l, k⟩ =
          some (g, ⟨singleBody n false cs ++ '\'' :: r, i', l', k'⟩) := by
  have hsolid := solid_singleBody n hcs r
  cases hgs with
  | inLine j =>
    rw [singleBody_blanks, List.append_assoc]
    exact ⟨_, _, _, _, Nat.le_refl l, Nat.lt_of_lt_of_le hk (Nat.le_add_right k (j + 1)), rfl,
      gap_eq_blanks (j + 1) hsolid 0 i l k⟩
  | @overLines b bs hfirst hbs =>
    obtain ⟨hb, hrest⟩ := List.forall_mem_cons.mp hbs
    have hnobreak : ∀ c ∈ cs.head?, isBreak c = false := fun c hc => isBreak_of_isGap (hcs c hc)
    have hcode : singleBody n false (b :: bs ++ cs) ++ '\'' :: r =
        b :: bs ++ (blanks n ++ (singleBody n false cs ++ '\'' :: r)) := by
      rw [List.cons_append, singleBody_breaks n hb.isBreak fun c hc => (hrest c hc).isBreak,
        singleBody_indented n hnobreak]
      simp
    rw [hcode]
    obtain ⟨i', l', hl, hgap⟩ := gap_eq_breaks hbs (List.cons_ne_nil b bs) n hsolid 0 i l k
    refine ⟨_, i', l', n, Nat.le_of_lt hl, hn, ?_, hgap⟩
    rcases hfirst with rfl | rfl <;> simp [Gap.text]

/-- Behind its opening quote, a text in single quotes is read back. -/
theorem quotedRuns_single {r : List Char} (hr : r.head? ≠ some '\'') {n : Nat} (hn : 0 < n)
    (fuel : Nat) {cs : List Char} (hcs : Quotable cs) (hfuel : cs.length < fuel) (i l k : Nat)
    (hk : 0 < k) :
    ∃ i' l' k', l ≤ l' ∧ quotedRuns fuel false ⟨singleBody n false cs ++ '\'' :: r, i, l, k⟩ =
      some (cs, ⟨r, i', l', k'⟩) := by
  -- as between double quotes, but a gap may go over lines and come back indented
  induction fuel generalizing cs i l k with
  | zero => omega
  | succ fuel ih =>
    obtain ⟨run, more, rfl, hrun, hmore⟩ := exists_eq_run_append isGap cs
    have hspells : ∀ c ∈ run, Spells false (singleCode c) c := fun c hc =>
      spells_singleCode (hrun c hc)
    rw [singleBody_run n fun c hc => isBreak_of_isGap (hrun c hc)]
    cases more with
    | nil =>
      rw [List.append_nil, singleBody, if_neg (by simp), List.append_nil]
      exact ⟨_, _, _, Nat.le_refl l, quotedRuns_last hspells hr fuel i l hk⟩
    | cons d more =>
      have hd := hmore d rfl
      obtain ⟨gs, cs, hsplit, hgs, hsolid⟩ := hcs.tail.exists_gap hd
      obtain ⟨code, hcode⟩ : ∃ code, singleBody n false (d :: more) ++ '\'' :: r = d :: code :=
        exists_singleBody_eq_cons n hd more r
      rw [hsplit] at hcs hfuel hcode ⊢
      obtain ⟨g, i₁, l₁, k₁, hl₁, hk₁, htext, hgap⟩ := hgs.gap_singleBody hsolid hn r
        (i + (run.flatMap singleCode).length) l
        (by omega : 0 < k + (run.flatMap singleCode).length)
      have hless : cs.length < fuel := by
        have hpos : 0 < gs.length := by cases hgs <;> simp [blanks]
        simp only [List.length_append] at hfuel
        omega
      obtain ⟨i', l', k', hl, hrest⟩ := ih hcs.tail.tail hless i₁ l₁ k₁ hk₁
      refine ⟨i', l', k', Nat.le_trans hl₁ hl, ?_⟩
      rw [hcode] at hgap
      rw [List.append_assoc, hcode, quotedRuns_more hspells hd fuel i l hk hgap, hrest, htext]
      simp

theorem length_le_singleBody (n : Nat) (behind : Bool) (cs : List Char) :
    cs.length ≤ (singleBody n behind cs).length := by
  induction cs generalizing behind with
  | nil => simp
  | cons c cs ih =>
    rw [singleBody]
    split
    · exact Nat.succ_le_succ (ih true)
    · have hrest := ih false
      have hcode : 1 ≤ (if c == '\'' then ['\'', '\''] else [c]).length := by
        split <;> simp
      simp only [List.length_append, List.length_cons]
      omega

theorem quoted?_singleQuoted {cs : List Char} (hcs : Quotable cs) {n : Nat} (hn : 0 < n)
    {r : List Char} (hr : r.head? ≠ some '\'') (i l k : Nat) :
    ∃ i' l' k', l ≤ l' ∧
      quoted? false ⟨singleQuoted n cs ++ r, i, l, k⟩ = some (cs, ⟨r, i', l', k'⟩) := by
  have hlength := length_le_singleBody n false cs
  obtain ⟨i', l', k', hl, h⟩ := quotedRuns_single hr hn ((singleQuoted n cs ++ r).length + 1) hcs
    (by simp only [singleQuoted, List.length_append, List.length_cons]; omega) (i + 1) l (k + 1)
    (Nat.succ_pos k)
  refine ⟨i', l', k', hl, ?_⟩
  rw [quoted?]
  simpa [singleQuoted, Cursor.advance] using h

theorem quotable_of_fitsSingle {cs : List Char} (h : fitsSingle cs = true) (hfeed : '\n' ∉ cs) :
    Quotable cs := by
  simp only [fitsSingle, Bool.not_eq_true', Bool.or_eq_false_iff] at h
  obtain ⟨⟨hafter, hbefore⟩, hspecial⟩ := h
  refine ⟨fun c hc hgap => ?_, hbefore, hafter⟩
  refine (gap_cases_of_isPrintable hgap (isPrintable_of_isSpecial hspecial hc)).imp_right
    fun hkept => hkept.resolve_left ?_
  rintro rfl
  exact hfeed hc

end Scaffold.Yaml
