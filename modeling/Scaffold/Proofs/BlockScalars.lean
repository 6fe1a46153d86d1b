import Scaffold.Proofs.PlainScalars

/-!
Literal blocks are read back. A block is a text line by line, each line behind the margin, and the
mark at its head tells what becomes of the breaks at its end.
-/

namespace Scaffold.Yaml

def chomping (cs : List Char) : Chomping :=
  match chompMark cs with
  | ['-'] => .strip
  | ['+'] => .keep
  | _ => .clip

theorem chompMark_cases (cs : List Char) :
    chompMark cs = ['-'] ∨ chompMark cs = ['+'] ∨ chompMark cs = [] := by
  unfold chompMark
  split
  · exact .inl rfl
  · split <;> simp
  · split
    · simp
    · split <;> simp

theorem chompMark_of_solid_last {xs : List Char} {c : Char} (hc : isBreak c = false) :
    chompMark (xs ++ [c]) = ['-'] := by
  unfold chompMark
  rw [List.reverse_append, List.reverse_singleton, List.singleton_append]
  cases xs.reverse with
  | nil => simp [hc]
  | cons d r => simp [hc]

theorem chompMark_of_break_last {xs : List Char} {c d : Char} (hc : isBreak c = true) :
    chompMark (xs ++ [d, c]) = if isBreak d then ['+'] else [] := by
  unfold chompMark
  rw [List.reverse_append]
  simp [hc]

/-- How a text ends is read off its last line and the breaks behind it. -/
theorem chompMark_append (xs : List Char) {c : Char} (hc : isBreak c = false) (r : List Char) :
    chompMark (xs ++ c :: r) = chompMark (c :: r) := by
  unfold chompMark
  rw [List.reverse_append]
  cases h : (c :: r).reverse with
  | nil => simp at h
  | cons x t =>
    cases t with
    | cons y t => rfl
    | nil =>
      obtain ⟨rfl, rfl⟩ : c = x ∧ r = [] := by
        have := congrArg List.reverse h
        simpa using this
      cases xs.reverse with
      | nil => rfl
      | cons d t => simp [hc]

theorem blockHeader?_marks (cs r : List Char) (i l k : Nat) :
    ∃ i' k', blockHeader? ⟨indentMark cs ++ (chompMark cs ++ '\n' :: r), i, l, k⟩ =
      some (chomping cs, if cs.head?.any isSpaceOrBreak then some 2 else none,
        ⟨'\n' :: r, i', l, k'⟩) := by
  have hmark := chompMark_cases cs
  unfold indentMark chomping
  by_cases hhead : cs.head?.any isSpaceOrBreak = true
  · rw [if_pos hhead, if_pos hhead]
    rcases hmark with h | h | h <;> rw [h] <;> exact ⟨_, _, rfl⟩
  · rw [if_neg hhead, if_neg hhead]
    rcases hmark with h | h | h <;> rw [h] <;> exact ⟨_, _, rfl⟩

/-- A line of text or the end follows. -/
def LineAhead (r : List Char) : Prop := ∀ c ∈ r.head?, isBreak c = false ∧ c ≠ '\t'

theorem length_takeWhile_blanks (m : Nat) (r : List Char) :
    ((blanks m ++ r).takeWhile (· == ' ')).length = m + (r.takeWhile (· == ' ')).length := by
  rw [List.takeWhile_append_of_pos, List.length_append, length_blanks]
  intro c hc
  simp [List.eq_of_mem_replicate hc]

/-- How many of the blanks at the start of a line only indent it. -/
def indentation (margin : Option Nat) (cs : List Char) : Nat :=
  match margin with
  | some n => min (cs.takeWhile (· == ' ')).length n
  | none => (cs.takeWhile (· == ' ')).length

theorem emptyLines_line (fuel : Nat) (margin : Option Nat) (deepest : Nat) (cs : List Char)
    (i l : Nat) :
    let m := indentation margin cs
    emptyLines (fuel + 1) margin deepest ⟨cs, i, l, 0⟩ =
      match cs.drop m with
      | [] => some ([], max deepest m, ⟨[], i + m, l, m⟩)
      | d :: r =>
        if d == '\t' && margin.all (fun n => decide (m < n)) then none
        else if isBreak d then do
          let (s, deepest, c) ←
            emptyLines fuel margin (max deepest m) (⟨d :: r, i + m, l, m⟩ : Cursor).nextLine
          some (normalBreak d :: s, deepest, c)
        else some ([], max deepest m, ⟨d :: r, i + m, l, m⟩) := by
  intro m
  have hstep : (⟨cs, i, l, 0⟩ : Cursor).advance m = ⟨cs.drop m, i + m, l, m⟩ := by
    simp [Cursor.advance]
  cases margin with
  | none =>
    have hm : (cs.takeWhile (· == ' ')).length = m := rfl
    rw [emptyLines]
    simp only [hm, hstep]
    cases hrest : cs.drop m <;> rfl
  | some n =>
    have hm : min (cs.takeWhile (· == ' ')).length n = m := rfl
    rw [emptyLines]
    simp only [Nat.sub_zero, hm, hstep]
    cases hrest : cs.drop m <;> rfl

/-- The margin is passed, and no more blanks than it has. -/
def Reaches (margin : Option Nat) (m : Nat) (r : List Char) : Prop :=
  match margin with
  | some n => m = n ∨ m ≤ n ∧ r.head? ≠ some ' '
  | none => r.head? ≠ some ' '

theorem reaches_margin (n : Nat) (r : List Char) : Reaches (some n) n r := Or.inl rfl

theorem indentation_blanks {margin : Option Nat} {m : Nat} {r : List Char}
    (h : Reaches margin m r) : indentation margin (blanks m ++ r) = m := by
  have hrun : r.head? ≠ some ' ' → (r.takeWhile (· == ' ')).length = 0 := by
    cases r with
    | nil => exact fun _ => rfl
    | cons c r => exact fun h => by simp at h; simp [h]
  cases margin with
  | none => rw [indentation, length_takeWhile_blanks, hrun h, Nat.add_zero]
  | some n =>
    simp only [indentation, length_takeWhile_blanks]
    rcases h with rfl | ⟨hle, hhead⟩
    · omega
    · rw [hrun hhead]
      omega

/-- Empty lines are passed break by break, and then the margin of the line that has text. -/
theorem emptyLines_breaks {bs : List Char} (hbs : ∀ b ∈ bs, IsKeptBreak b) {r : List Char}
    (hr : LineAhead r) {fuel : Nat} (hfuel : bs.length < fuel) {margin : Option Nat} (deepest : Nat)
    {m : Nat} (hm : Reaches margin m r) (i l : Nat) :
    ∃ i' l', emptyLines fuel margin deepest ⟨bs ++ (blanks m ++ r), i, l, 0⟩ =
      some (bs, max deepest m, ⟨r, i', l', m⟩) := by
  induction bs generalizing fuel i l with
  | nil =>
    obtain ⟨fuel, rfl⟩ := Nat.exists_eq_add_one_of_ne_zero (Nat.ne_of_gt hfuel)
    refine ⟨i + m, l, ?_⟩
    rw [List.nil_append, emptyLines_line]
    simp only [indentation_blanks hm, List.drop_left' (length_blanks m)]
    cases r with
    | nil => rfl
    | cons d r =>
      obtain ⟨hbreak, htab⟩ := hr d rfl
      simp [hbreak, htab]
  | cons b bs ih =>
    rw [List.length_cons] at hfuel
    obtain ⟨fuel, rfl⟩ := Nat.exists_eq_add_one_of_ne_zero (by omega : fuel ≠ 0)
    have hb : IsKeptBreak b := hbs b List.mem_cons_self
    obtain ⟨i', l', hrest⟩ := ih (fun x hx => hbs x (List.mem_cons_of_mem b hx))
      (Nat.lt_of_succ_lt_succ hfuel) (i + 1) (l + 1)
    refine ⟨i', l', ?_⟩
    have hindent : indentation margin (b :: (bs ++ (blanks m ++ r))) = 0 := by
      have hblank : (b == ' ') = false := by rcases hb with rfl | rfl | rfl <;> rfl
      cases margin <;> simp [indentation, hblank]
    have htab : (b == '\t') = false := by rcases hb with rfl | rfl | rfl <;> rfl
    rw [List.cons_append, emptyLines_line]
    simp only [hindent, List.drop_zero, htab, Bool.false_and, Bool.false_eq_true, if_false,
      hb.isBreak, if_true, hb.nextLine_eq, hb.normalBreak_eq, Nat.max_zero, Nat.add_zero, hrest,
      Option.bind_eq_bind, Option.bind_some]

theorem literalBody_line (n : Nat) {line : List Char} (hline : ∀ c ∈ line, isBreak c = false)
    (more : List Char) : literalBody n false (line ++ more) = line ++ literalBody n false more := by
  induction line with
  | nil => rfl
  | cons c line ih =>
    have hrest := ih fun x hx => hline x (List.mem_cons_of_mem c hx)
    simp [literalBody, hline c List.mem_cons_self, hrest]

theorem literalBody_breaks (n : Nat) {bs : List Char} (hbs : ∀ b ∈ bs, isBreak b = true)
    (more : List Char) : literalBody n true (bs ++ more) = bs ++ literalBody n true more := by
  induction bs with
  | nil => rfl
  | cons b bs ih =>
    have hrest := ih fun x hx => hbs x (List.mem_cons_of_mem b hx)
    simp [literalBody, hbs b List.mem_cons_self, hrest]

theorem literalBody_indented (n : Nat) {c : Char} (hc : isBreak c = false) (r : List Char) :
    literalBody n true (c :: r) = blanks n ++ literalBody n false (c :: r) := by
  simp [literalBody, hc]

/-- The line end that a written text still needs. -/
def lineEnd (cs : List Char) : List Char := if cs.getLast?.any isBreak then [] else ['\n']

theorem lineEnd_concat (xs : List Char) {c : Char} (hc : isBreak c = false) :
    lineEnd (xs ++ [c]) = ['\n'] := by
  simp [lineEnd, hc]

theorem lineEnd_append (xs : List Char) {cs : List Char} (h : cs ≠ []) :
    lineEnd (xs ++ cs) = lineEnd cs := by
  rw [lineEnd, lineEnd, List.getLast?_append_of_ne_nil xs h]

theorem lineEnd_of_breaks {bs : List Char} (hbs : ∀ c ∈ bs, isBreak c = true) (hne : bs ≠ []) :
    lineEnd bs = [] := by
  obtain ⟨front, c, rfl⟩ := exists_eq_concat hne
  simp [lineEnd, hbs c (by simp)]

/-- Of a text that ends with a line, the end is stripped. -/
theorem chomping_line {line : List Char} (hne : line ≠ [])
    (hline : ∀ c ∈ line, isBreak c = false) : chomping line = .strip := by
  obtain ⟨front, c, rfl⟩ := exists_eq_concat hne
  rw [chomping, chompMark_of_solid_last (hline c (by simp))]
  rfl

/-- A single break behind the last line is read as it is. -/
theorem chomping_break {line : List Char} (hne : line ≠ []) (hline : ∀ c ∈ line, isBreak c = false)
    {b : Char} (hb : isBreak b = true) : chomping (line ++ [b]) = .clip := by
  obtain ⟨front, c, rfl⟩ := exists_eq_concat hne
  rw [List.append_assoc, List.singleton_append, chomping, chompMark_of_break_last hb,
    hline c (by simp)]
  rfl

/-- All breaks are kept where there is more than one, whatever they stand behind. -/
theorem chomping_breaks (xs : List Char) {b : Char} {bs : List Char}
    (hbs : ∀ c ∈ b :: bs, isBreak c = true) (hne : bs ≠ []) :
    chomping (xs ++ b :: bs) = .keep := by
  obtain ⟨bs, c, rfl⟩ := exists_eq_concat hne
  obtain ⟨front, d, hd⟩ := exists_eq_concat (List.cons_ne_nil b bs)
  have htext : xs ++ b :: (bs ++ [c]) = xs ++ front ++ [d, c] := by
    rw [← List.cons_append, hd]
    simp
  rw [← List.cons_append, hd] at hbs
  rw [htext, chomping, chompMark_of_break_last (hbs c (by simp)), hbs d (by simp)]
  rfl

theorem chomping_of_breaks {bs : List Char} (hbs : ∀ c ∈ bs, isBreak c = true) (hne : bs ≠ []) :
    chomping bs = .keep := by
  cases bs with
  | nil => exact absurd rfl hne
  | cons b bs =>
    cases bs with
    | nil => simp [chomping, chompMark, hbs b List.mem_cons_self]
    | cons c bs => exact chomping_breaks [] hbs (by simp)

/-- What a reader makes of the break behind a line and the breaks of the empty lines after it. -/
def chomped (k : Chomping) (last empty : List Char) : List Char :=
  (if k == .strip then [] else last) ++ (if k == .keep then empty else [])

/-- The breaks behind the last line are read as they are. -/
theorem chomped_breaks {line : List Char} (hne : line ≠ []) (hline : ∀ c ∈ line, isBreak c = false)
    {b : Char} {bs : List Char} (hbs : ∀ c ∈ b :: bs, isBreak c = true) :
    chomped (chomping (line ++ b :: bs)) [b] bs = b :: bs := by
  cases bs with
  | nil => rw [chomping_break hne hline (hbs b List.mem_cons_self)]; rfl
  | cons c bs => rw [chomping_breaks line hbs (List.cons_ne_nil c bs)]; rfl

/-- Left of the margin the block is over. -/
theorem blockLines_stop {margin m : Nat} (hm : m ≠ margin) (fuel : Nat) (k : Chomping)
    (last empty : List Char) (deeper : Bool) (r : List Char) (i l : Nat) :
    blockLines (fuel + 1) true k margin last empty deeper ⟨r, i, l, m⟩ =
      some (chomped k last empty, ⟨r, i, l, m⟩) := by
  have hcolumn : (m == margin) = false := by simpa using hm
  rw [blockLines]
  simp only [hcolumn, Bool.false_and, Bool.false_eq_true, if_false]
  rfl

/-- A line at the margin and the empty lines behind it, up to what stands on the next line. -/
theorem blockLines_line {margin m : Nat} {line bs r : List Char} {b : Char}
    (hline : ∀ c ∈ line, isBreak c = false) (hbs : ∀ c ∈ b :: bs, IsKeptBreak c)
    (hr : LineAhead r) (hm : Reaches (some margin) m r) (fuel : Nat) (k : Chomping)
    (last empty : List Char) (deeper : Bool) (i l : Nat) :
    ∃ i' l' deeper', blockLines (fuel + 1) true k margin last empty deeper
      ⟨line ++ b :: (bs ++ (blanks m ++ r)), i, l, margin⟩ =
        (blockLines fuel true k margin [b] bs deeper' ⟨r, i', l', m⟩).map fun p =>
          (last ++ empty ++ line ++ p.1, p.2) := by
  obtain ⟨hb, hbs⟩ := List.forall_mem_cons.mp hbs
  have hfuel : bs.length < (bs ++ (blanks m ++ r)).length + 2 := by
    rw [List.length_append]
    omega
  obtain ⟨i', l', hempty⟩ := emptyLines_breaks hbs hr hfuel 0 hm (i + line.length + 1) (l + 1)
  refine ⟨i', l', (line ++ b :: (bs ++ (blanks m ++ r))).head?.any isSpaceOrTab, ?_⟩
  have hrun : (line ++ b :: (bs ++ (blanks m ++ r))).takeWhile (fun d => !isBreak d) = line := by
    rw [List.takeWhile_append_of_pos fun c hc => by simp [hline c hc]]
    simp [hb.isBreak]
  have hrest : (line ++ b :: (bs ++ (blanks m ++ r))).isEmpty = false := by simp
  rw [blockLines]
  simp only [beq_self_eq_true, hrest, Bool.not_false, Bool.and_self, if_true, Cursor.takeWhile,
    hrun, Cursor.advance, List.drop_left, Bool.not_true, Bool.false_and, Bool.false_eq_true,
    if_false, List.length_cons, hb.nextLine_eq, hempty, Option.bind_eq_bind, Option.bind_some,
    List.head?_cons, Option.map_some, hb.normalBreak_eq, Option.toList_some]
  cases blockLines fuel true k margin [b] bs _ ⟨r, i', l', m⟩ <;> rfl

/-- The next line of the document, left of a block. -/
structure Outside (margin m : Nat) (body : List Char) : Prop where
  lt : m < margin
  lineAhead : LineAhead body
  head_ne : body.head? ≠ some ' '

theorem Outside.reaches {margin m : Nat} {body : List Char} (h : Outside margin m body) :
    Reaches (some margin) m body := .inr ⟨Nat.le_of_lt h.lt, h.head_ne⟩

/-- The last line of a block, and the breaks behind it. -/
theorem blockLines_last {margin m : Nat} {body : List Char} (hbody : Outside margin m body)
    {line bs : List Char} {b : Char} (hline : ∀ c ∈ line, isBreak c = false)
    (hbs : ∀ c ∈ b :: bs, IsKeptBreak c) (fuel : Nat) (k : Chomping) (last empty : List Char)
    (deeper : Bool) (i l : Nat) :
    ∃ i' l', blockLines (fuel + 2) true k margin last empty deeper
      ⟨line ++ b :: (bs ++ (blanks m ++ body)), i, l, margin⟩ =
        some (last ++ empty ++ line ++ chomped k [b] bs, ⟨body, i', l', m⟩) := by
  obtain ⟨i', l', deeper', hblock⟩ := blockLines_line hline hbs hbody.lineAhead hbody.reaches
    (fuel + 1) k last empty deeper i l
  refine ⟨i', l', ?_⟩
  rw [hblock, blockLines_stop (Nat.ne_of_lt hbody.lt), Option.map_some]

/-- A text with breaks that are read as they are, and without tabs. -/
structure Blockable (cs : List Char) : Prop where
  kept : ∀ c ∈ cs, isBreak c = true → IsKeptBreak c
  no_tab : ∀ c ∈ cs, c ≠ '\t'

theorem Blockable.tail {xs cs : List Char} (h : Blockable (xs ++ cs)) : Blockable cs where
  kept c hc := h.kept c (List.mem_append_right xs hc)
  no_tab c hc := h.no_tab c (List.mem_append_right xs hc)

theorem head?_literalBody (n : Nat) {c : Char} (hc : isBreak c = false) (cs r : List Char) :
    (literalBody n false (c :: cs) ++ r).head? = some c := by
  rw [literalBody, if_neg (by simp [hc])]
  rfl

/-- A line that starts with such a character is no empty line. -/
theorem Blockable.lineAhead {c : Char} {cs : List Char} (h : Blockable (c :: cs))
    (hc : isBreak c = false) (n : Nat) (r : List Char) :
    LineAhead (literalBody n false (c :: cs) ++ r) := by
  intro d hd
  rw [head?_literalBody n hc] at hd
  obtain rfl := Option.some.inj hd
  exact ⟨hc, h.no_tab c List.mem_cons_self⟩

/-- From its first line of text on a block is read back up to the next line of the document. -/
theorem blockLines_text {n m : Nat} {body : List Char} (hbody : Outside n m body) (fuel : Nat)
    {cs : List Char} (hcs : Blockable cs) (hne : cs ≠ [])
    (hhead : ∀ c ∈ cs.head?, isBreak c = false) (hfuel : cs.length < fuel)
    (last empty : List Char) (deeper : Bool) (i l : Nat) :
    ∃ i' l', blockLines fuel true (chomping cs) n last empty deeper
      ⟨literalBody n false cs ++ (lineEnd cs ++ (blanks m ++ body)), i, l, n⟩ =
        some (last ++ empty ++ cs, ⟨body, i', l', m⟩) := by
  -- a line is passed with the empty lines behind it, which may be the last
  induction fuel generalizing cs last empty deeper i l with
  | zero => omega
  | succ fuel ih =>
    obtain ⟨line, more, rfl, hline, hmore⟩ := exists_eq_run_append isBreak cs
    have hline_ne : line ≠ [] := by
      rintro rfl
      obtain ⟨c, more, rfl⟩ := List.exists_cons_of_ne_nil (by simpa using hne)
      exact absurd (hhead c rfl) (by simp [hmore c rfl])
    have hlength := List.length_pos_iff.mpr hline_ne
    rw [List.length_append] at hfuel
    obtain ⟨fuel, rfl⟩ := Nat.exists_eq_add_one_of_ne_zero (by omega : fuel ≠ 0)
    rw [literalBody_line n hline]
    cases more with
    | nil =>
      have hfeed : ∀ c ∈ ['\n'], IsKeptBreak c := List.forall_mem_singleton.mpr (.inl rfl)
      have hend : lineEnd (line ++ []) = ['\n'] := by
        obtain ⟨front, c, rfl⟩ := exists_eq_concat hline_ne
        rw [List.append_nil, lineEnd_concat front (hline c (by simp))]
      obtain ⟨i', l', hlast⟩ := blockLines_last hbody hline hfeed fuel .strip last empty deeper i l
      refine ⟨i', l', ?_⟩
      rw [hend, literalBody, List.append_nil, chomping_line hline_ne hline]
      exact hlast.trans (by simp [chomped])
    | cons b more =>
      have hb : isBreak b = true := hmore b rfl
      obtain ⟨bs, cs, rfl, hbs, hcs_head⟩ := exists_eq_run_append (fun c => !isBreak c) more
      have hbreaks : ∀ c ∈ b :: bs, isBreak c = true :=
        List.forall_mem_cons.mpr ⟨hb, fun c hc => by simpa using hbs c hc⟩
      have hkept : ∀ c ∈ b :: bs, IsKeptBreak c := fun c hc =>
        hcs.kept c (by simp at hc ⊢; tauto) (hbreaks c hc)
      rw [literalBody, if_pos hb, literalBody_breaks n (List.forall_mem_cons.mp hbreaks).2]
      cases cs with
      | nil =>
        obtain ⟨i', l', hlast⟩ := blockLines_last hbody hline hkept fuel
          (chomping (line ++ b :: bs)) last empty deeper i l
        refine ⟨i', l', ?_⟩
        rw [List.append_nil, lineEnd_append line (List.cons_ne_nil b bs),
          lineEnd_of_breaks hbreaks (List.cons_ne_nil b bs), literalBody]
        rw [chomped_breaks hline_ne hline hbreaks] at hlast
        simpa using hlast
      | cons c cs =>
        have hc : isBreak c = false := by simpa using hcs_head c rfl
        have hsplit : line ++ b :: (bs ++ c :: cs) = (line ++ b :: bs) ++ c :: cs := by simp
        rw [hsplit] at hcs ⊢
        obtain ⟨i₁, l₁, deeper', hblock⟩ := blockLines_line hline hkept
          (hcs.tail.lineAhead hc n (lineEnd (c :: cs) ++ (blanks m ++ body))) (reaches_margin n _)
          (fuel + 1) (chomping (c :: cs)) last empty deeper i l
        obtain ⟨i', l', hrest⟩ := ih hcs.tail (List.cons_ne_nil c cs)
          (fun d hd => by cases hd; exact hc) (by simp at hfuel ⊢; omega) [b] bs deeper' i₁ l₁
        refine ⟨i', l', ?_⟩
        rw [chomping, chompMark_append _ hc, ← chomping, lineEnd_append _ (List.cons_ne_nil c cs),
          literalBody_indented n hc]
        simp only [List.append_assoc, List.cons_append] at hblock ⊢
        rw [hblock, hrest]
        simp

theorem finishLine?_break (r : List Char) (i l k : Nat) :
    (⟨'\n' :: r, i, l, k⟩ : Cursor).finishLine? = some ⟨r, i + 1, l + 1, 0⟩ := rfl

/-- The margin as the head of the block gives it. -/
def knownMargin (n : Nat) (cs : List Char) : Option Nat :=
  if cs.head?.any isSpaceOrBreak then some (n + 2) else none

theorem knownMargin_eq (n : Nat) (cs : List Char) :
    (if cs.head?.any isSpaceOrBreak then some 2 else none).map
      (fun k => (max (n : Int) 0).toNat + k) = knownMargin n cs := by
  unfold knownMargin
  split
  · have hmargin : (max (n : Int) 0).toNat + 2 = n + 2 := by omega
    exact congrArg some hmargin
  · rfl

/-- Behind the head the lines are read, at the margin that it gives or that the first line shows. -/
theorem block?_eq (n : Nat) (cs r : List Char) (i l k : Nat) :
    ∃ i', block? true n ⟨literalBlock (n + 2) cs ++ r, i, l, k⟩ =
      (emptyLines ((literalBody (n + 2) true cs ++ r).length + 1) (knownMargin n cs) 0
        ⟨literalBody (n + 2) true cs ++ r, i', l + 1, 0⟩).bind fun p =>
          blockLines (p.2.2.rest.length + 1) true (chomping cs)
            ((knownMargin n cs).getD (max 1 (max p.2.1 ((n : Int) + 1).toNat))) [] p.1 false
            p.2.2 := by
  obtain ⟨i', k', hheader⟩ := blockHeader?_marks cs (literalBody (n + 2) true cs ++ r) (i + 1) l
    (k + 1)
  have hopen : (⟨literalBlock (n + 2) cs ++ r, i, l, k⟩ : Cursor).advance 1 =
      ⟨indentMark cs ++ (chompMark cs ++ '\n' :: (literalBody (n + 2) true cs ++ r)), i + 1, l,
        k + 1⟩ := by
    simp [literalBlock, Cursor.advance]
  refine ⟨i' + 1, ?_⟩
  rw [block?, hopen, hheader]
  simp only [Option.bind_eq_bind, Option.bind_some, finishLine?_break, knownMargin_eq]

theorem length_le_literalBody (n : Nat) (behind : Bool) (cs : List Char) :
    cs.length ≤ (literalBody n behind cs).length := by
  induction cs generalizing behind with
  | nil => simp
  | cons c cs ih =>
    rw [literalBody]
    split
    · exact Nat.succ_le_succ (ih true)
    · have hrest := ih false
      simp only [List.length_append, List.length_cons]
      omega

theorem head?_isSpaceOrBreak {bs : List Char} (hbs : ∀ c ∈ bs, isBreak c = true) (hne : bs ≠ [])
    (cs : List Char) : (bs ++ cs).head?.any isSpaceOrBreak = true := by
  obtain ⟨b, bs, rfl⟩ := List.exists_cons_of_ne_nil hne
  simp [isSpaceOrBreak, hbs b List.mem_cons_self]

/-- The margin can be seen where the head does not give it. -/
theorem reaches_knownMargin (n : Nat) {bs : List Char} (hbs : ∀ c ∈ bs, isBreak c = true) {c : Char}
    (hc : isBreak c = false) (cs r : List Char) :
    Reaches (knownMargin n (bs ++ c :: cs)) (n + 2) (literalBody (n + 2) false (c :: cs) ++ r) := by
  unfold knownMargin
  split
  · exact reaches_margin _ _
  · next hhead =>
    have hfront : bs = [] := by
      by_contra hne
      exact hhead (head?_isSpaceOrBreak hbs hne _)
    subst hfront
    rw [Reaches, head?_literalBody _ hc]
    intro h
    rw [Option.some.inj h] at hhead
    exact hhead rfl

/-- A block is read back inside a record whose keys stand at column `n`. -/
theorem block?_literalBlock {cs : List Char} (hcs : Blockable cs) (hne : cs ≠ []) {n m : Nat}
    {body : List Char} (hbody : Outside (n + 2) m body) (i l k : Nat) :
    ∃ i' l', block? true n
      ⟨literalBlock (n + 2) cs ++ (lineEnd cs ++ (blanks m ++ body)), i, l, k⟩ =
        some (cs, ⟨body, i', l', m⟩) := by
  obtain ⟨i₀, hblock⟩ := block?_eq n cs (lineEnd cs ++ (blanks m ++ body)) i l k
  rw [hblock]
  obtain ⟨bs, more, rfl, hbs, hmore⟩ := exists_eq_run_append (fun c => !isBreak c) cs
  have hbreaks : ∀ c ∈ bs, isBreak c = true := fun c hc => by simpa using hbs c hc
  have hkept : ∀ c ∈ bs, IsKeptBreak c := fun c hc => hcs.kept c (by simp [hc]) (hbreaks c hc)
  have hlength : ∀ r : List Char, bs.length < (bs ++ r).length + 1 := fun r => by
    rw [List.length_append]
    omega
  rw [literalBody_breaks _ hbreaks]
  cases more with
  | nil =>
    -- nothing but breaks, which are all kept
    have hbs_ne : bs ≠ [] := by simpa using hne
    have hknown : knownMargin n (bs ++ []) = some (n + 2) :=
      if_pos (head?_isSpaceOrBreak hbreaks hbs_ne [])
    obtain ⟨i', l', hempty⟩ := emptyLines_breaks hkept hbody.lineAhead
      (hlength (blanks m ++ body)) 0 hbody.reaches i₀ (l + 1)
    refine ⟨i', l', ?_⟩
    rw [hknown, List.append_nil, lineEnd_of_breaks hbreaks hbs_ne,
      chomping_of_breaks hbreaks hbs_ne, literalBody, List.append_nil, List.nil_append, hempty,
      Option.bind_some, Option.getD_some, blockLines_stop (Nat.ne_of_lt hbody.lt)]
    rfl
  | cons c more =>
    have hc : isBreak c = false := by simpa using hmore c rfl
    have hmargin : (knownMargin n (bs ++ c :: more)).getD
        (max 1 (max (max 0 (n + 2)) ((n : Int) + 1).toNat)) = n + 2 := by
      unfold knownMargin
      split
      · rfl
      · rw [Option.getD_none]
        omega
    rw [literalBody_indented _ hc, lineEnd_append _ (List.cons_ne_nil c more)]
    obtain ⟨i₁, l₁, hempty⟩ := emptyLines_breaks hkept
      (hcs.tail.lineAhead hc (n + 2) (lineEnd (c :: more) ++ (blanks m ++ body)))
      (hlength _) 0 (reaches_knownMargin n hbreaks hc more _) i₀ (l + 1)
    have hbody_length := length_le_literalBody (n + 2) false (c :: more)
    obtain ⟨i', l', hlines⟩ := blockLines_text hbody ((literalBody (n + 2) false (c :: more) ++
        (lineEnd (c :: more) ++ (blanks m ++ body))).length + 1) hcs.tail (List.cons_ne_nil c more)
      (fun d hd => by cases hd; exact hc) (by rw [List.length_append]; omega) [] bs false i₁ l₁
    refine ⟨i', l', ?_⟩
    simp only [List.append_assoc]
    rw [hempty, Option.bind_some]
    simp only [hmargin]
    rw [chomping, chompMark_append bs hc, ← chomping, hlines]
    rfl

theorem blockable_of_fitsLiteral {cs : List Char} (h : fitsLiteral cs = true) : Blockable cs := by
  simp only [fitsLiteral, Bool.not_eq_true', Bool.or_eq_false_iff] at h
  have hprint := fun c (hc : c ∈ cs) => isPrintable_of_isSpecial h.2 hc
  refine ⟨fun c hc hbreak => isKeptBreak_of_isPrintable hbreak (hprint c hc), ?_⟩
  rintro c hc rfl
  exact absurd (hprint _ hc) (by decide)

end Scaffold.Yaml
