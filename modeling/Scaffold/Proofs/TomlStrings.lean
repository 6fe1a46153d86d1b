import Scaffold.Proofs.Numerals
import Scaffold.Toml.Quoting

/-!
Strings and keys of TOML, read by the rules of the format. A basic string has escapes and a literal
one has none; the long form of each goes on over line ends and quotes until three quotes stand
together, and up to two more in front of those belong to the text. A line end behind a backslash is
the one thing of the format that is refused here. A written string or key is read back whichever
form was chosen for it.
-/

namespace Scaffold.Toml

/-- The character of a code that is no surrogate. -/
def scalar? (digits : List Char) : Option Char := do
  let n ← Number.digits? 16 digits
  if n.isValidChar then some (Char.ofNat n) else none

/-- The character that one letter behind a backslash names. -/
def shortEscape? : Char → Option Char
  | 'b' => some '\x08'
  | 't' => some '\t'
  | 'n' => some '\n'
  | 'f' => some '\x0c'
  | 'r' => some '\r'
  | '"' => some '"'
  | '\\' => some '\\'
  | _ => none

/-- The character that is told behind a backslash. -/
def escape? : List Char → Option (Char × List Char)
  | 'u' :: x :: y :: z :: w :: r => (scalar? [x, y, z, w]).map fun c => (c, r)
  | 'U' :: x :: y :: z :: w :: x' :: y' :: z' :: w' :: r =>
    (scalar? [x, y, z, w, x', y', z', w']).map fun c => (c, r)
  | e :: r => (shortEscape? e).map fun c => (c, r)
  | [] => none

theorem length_lt_of_escape? {cs : List Char} {p : Char × List Char} (h : escape? cs = some p) :
    p.2.length < cs.length := by
  unfold escape? at h
  split at h
  case h_4 => cases h
  all_goals
    obtain ⟨c, -, rfl⟩ := Option.map_eq_some_iff.mp h
    simp only [List.length_cons]
    omega

/-- A character that may stand for itself on a line. -/
def isPlain (c : Char) : Bool := c == '\t' || (decide (32 ≤ c.toNat) && c.toNat != 127)

/-- What follows the string if a quote closes it, told from what follows the quote. Three quotes
close a long text, but not where another quote follows and no two of the text stand before. -/
def closing? (quote : Char) (long : Bool) (bare : Nat) (r : List Char) : Option (List Char) :=
  if long then
    match r with
    | d :: e :: behind =>
      if d = quote ∧ e = quote ∧ ¬(behind.head? = some quote ∧ bare < 2) then some behind else none
    | _ => none
  else some r

/-- The text up to its closing quotes, and what follows them. The number counts the quotes of the
text right before. -/
def inside (quote : Char) (long : Bool) (bare : Nat) : List Char → Option (List Char × List Char)
  | [] => none
  | c :: r =>
    if c = quote then
      match closing? quote long bare r with
      | some behind => some ([], behind)
      | none => (inside quote long (bare + 1) r).map fun p => (c :: p.1, p.2)
    else if c = '\\' ∧ quote = '"' then
      match _h : escape? r with
      | some p => (inside quote long 0 p.2).map fun q => (p.1 :: q.1, q.2)
      | none => none
    else if isPlain c || (long && c == '\n') then
      (inside quote long 0 r).map fun p => (c :: p.1, p.2)
    else none
termination_by cs => cs.length
decreasing_by
  · exact Nat.lt_succ_self _
  · exact Nat.lt_succ_of_lt (length_lt_of_escape? ‹_›)
  · exact Nat.lt_succ_self _

/-- A line end right behind the opening quotes is not part of a long text. -/
def dropNewline : List Char → List Char
  | '\n' :: r => r
  | r => r

/-- The text behind an opening quote, or behind three of them. -/
def betweenQuotes? (quote : Char) : List Char → Option (List Char × List Char)
  | d :: e :: r =>
    if d = quote ∧ e = quote then inside quote true 0 (dropNewline r)
    else inside quote false 0 (d :: e :: r)
  | r => inside quote false 0 r

/-- The string at the head of a text. -/
def string? : List Char → Option (String × List Char)
  | '"' :: r => (betweenQuotes? '"' r).map fun p => (String.ofList p.1, p.2)
  | '\'' :: r => (betweenQuotes? '\'' r).map fun p => (String.ofList p.1, p.2)
  | _ => none

/-- The key at the head of a text: a string on one line, or a word. -/
def key? : List Char → Option (String × List Char)
  | '"' :: r => (inside '"' false 0 r).map fun p => (String.ofList p.1, p.2)
  | '\'' :: r => (inside '\'' false 0 r).map fun p => (String.ofList p.1, p.2)
  | cs =>
    let word := cs.takeWhile isBareChar
    if word.isEmpty then none else some (String.ofList word, cs.dropWhile isBareChar)

theorem isPlain_of_not_control {c : Char} (h : isControlCode c = false) (hline : c ≠ '\n') :
    isPlain c = true := by
  simp only [isControlCode, Bool.or_eq_false_iff, Bool.and_eq_false_iff, decide_eq_false_iff_not,
    bne_eq_false_iff_eq, beq_eq_false_iff_ne] at h
  obtain ⟨(h | rfl) | rfl, hdelete⟩ := h
  · simp [isPlain, hdelete]
    omega
  · rfl
  · exact absurd rfl hline

theorem escape?_short {e c : Char} (h : shortEscape? e = some c) (r : List Char) :
    escape? (e :: r) = some (c, r) := by
  unfold escape?
  split
  · next heq =>
    obtain ⟨rfl, -⟩ := List.cons.inj heq
    cases h
  · next heq =>
    obtain ⟨rfl, -⟩ := List.cons.inj heq
    cases h
  · next heq =>
    obtain ⟨rfl, rfl⟩ := List.cons.inj heq
    rw [h]
    rfl
  · next heq => exact absurd heq (List.cons_ne_nil _ _)

/-- A code of four digits stands for its character. -/
theorem escape?_code {c : Char} (h : c.toNat < 128) (r : List Char) :
    escape? ('u' :: Number.hexPadded Number.upperDigit 4 c.toNat ++ r) = some (c, r) := by
  have hvalue : Number.digits? 16 (Number.hexPadded Number.upperDigit 4 c.toNat) = some c.toNat :=
    Number.digits?_hexPadded Number.digit?_upperDigit (by decide) (Nat.lt_trans h (by decide))
  obtain ⟨x, y, z, w, hcode⟩ :=
    List.length_eq_four.mp (Number.length_hexPadded Number.upperDigit 4 c.toNat)
  rw [hcode] at hvalue ⊢
  have hvalid : c.toNat.isValidChar := .inl (Nat.lt_trans h (by decide))
  simp [escape?, scalar?, hvalue, hvalid]

/-- No two quotes stand in front without a third behind them. -/
def NeverTwo (quote : Char) (r : List Char) : Prop :=
  ∀ behind, r = quote :: quote :: behind → behind.head? = some quote

section Steps

variable {quote : Char} {long : Bool} {bare : Nat} {r : List Char}

theorem inside_plain {c : Char} (hquote : c ≠ quote) (hback : ¬(c = '\\' ∧ quote = '"'))
    (hplain : (isPlain c || (long && c == '\n')) = true) :
    inside quote long bare (c :: r) = (inside quote long 0 r).map fun p => (c :: p.1, p.2) := by
  rw [inside, if_neg hquote, if_neg hback, if_pos hplain]

/-- What stands behind a backslash is one character of the text. -/
theorem inside_escape (long : Bool) (bare : Nat) {cs : List Char} {c : Char}
    (h : escape? cs = some (c, r)) :
    inside '"' long bare ('\\' :: cs) = (inside '"' long 0 r).map fun p => (c :: p.1, p.2) := by
  rw [inside, if_neg (by decide), if_pos ⟨rfl, rfl⟩]
  split
  · next p hsome =>
    obtain rfl : (c, r) = p := Option.some.inj (h.symm.trans hsome)
    rfl
  · next hnone => exact absurd (h.symm.trans hnone) (Option.some_ne_none _)

theorem inside_closing : inside quote false bare (quote :: r) = some ([], r) := by
  simp [inside, closing?]

/-- Three quotes close a long text where no quote follows. -/
theorem inside_long_closing (h : r.head? ≠ some quote) :
    inside quote true bare (quote :: quote :: quote :: r) = some ([], r) := by
  simp [inside, closing?, h]

/-- A quote of the text stands for itself, though it stand right before the closing ones. -/
theorem inside_long_bare (hbare : bare < 2) (h : NeverTwo quote r) :
    inside quote true bare (quote :: r) =
      (inside quote true (bare + 1) r).map fun p => (quote :: p.1, p.2) := by
  have hopen : closing? quote true bare r = none := by
    unfold closing?
    rw [if_pos rfl]
    split
    · exact if_neg fun ⟨hd, he, hlast⟩ => hlast ⟨h _ (by rw [hd, he]), hbare⟩
    · rfl
  rw [inside, if_pos rfl, hopen]

end Steps

theorem escapeChar_eq_cons (long : Bool) (c : Char) :
    ∃ d r, escapeChar long c = d :: r ∧ (d = '\\' ∨ d = c) := by
  unfold escapeChar
  split
  case h_3 =>
    cases long with
    | true => exact ⟨_, _, rfl, .inr rfl⟩
    | false => exact ⟨_, _, rfl, .inl rfl⟩
  case h_7 =>
    split
    · exact ⟨_, _, rfl, .inl rfl⟩
    · exact ⟨_, _, rfl, .inr rfl⟩
  all_goals exact ⟨_, _, rfl, .inl rfl⟩

/-- An escape or the character comes first; a quote only in a long text, and not where two stand. -/
theorem escapeFrom_eq_cons (long : Bool) (bare : Nat) (c : Char) (cs : List Char) :
    ∃ d r, escapeFrom long bare (c :: cs) = d :: r ∧
      (d = '\\' ∨ d = c ∧ (c = '"' → long = true ∧ bare < 2)) := by
  by_cases hc : c = '"'
  · by_cases hbare : long = true ∧ bare < 2
    · exact ⟨'"', _, by simp [escapeFrom, hc, hbare]; rfl, .inr ⟨hc.symm, fun _ => hbare⟩⟩
    · have hescaped : escapeFrom long bare ('"' :: cs) = '\\' :: '"' :: escapeFrom long 0 cs := by
        rw [escapeFrom, if_pos (by decide), if_neg (by simpa using hbare)]
      exact ⟨'\\', _, hc ▸ hescaped, .inl rfl⟩
  · obtain ⟨d, r, hd, hor⟩ := escapeChar_eq_cons long c
    have hnever : c = '"' → long = true ∧ bare < 2 := fun h => absurd h hc
    exact ⟨d, _, by simp [escapeFrom, hc, hd]; rfl, hor.imp_right fun h => ⟨h, hnever⟩⟩

theorem head?_escapeFrom_ne_quote (long : Bool) (bare : Nat) (h : ¬(long = true ∧ bare < 2))
    (cs : List Char) : (escapeFrom long bare cs).head? ≠ some '"' := by
  cases cs with
  | nil => exact nofun
  | cons c cs =>
    obtain ⟨d, r, hd, rfl | ⟨rfl, hbare⟩⟩ := escapeFrom_eq_cons long bare c cs
    · simp [hd]
    · simpa [hd] using fun hquote => h (hbare hquote)

theorem toNat_lt_of_isControlCode {c : Char} (h : isControlCode c = true) : c.toNat < 128 := by
  simp only [isControlCode, Bool.or_eq_true, Bool.and_eq_true, decide_eq_true_eq,
    beq_iff_eq] at h
  omega

theorem inside_escapeChar {c : Char} (hc : c ≠ '"') (long : Bool) (bare : Nat) (r : List Char) :
    inside '"' long bare (escapeChar long c ++ r) =
      (inside '"' long 0 r).map fun p => (c :: p.1, p.2) := by
  unfold escapeChar
  split
  case h_3 =>
    cases long with
    | true => exact inside_plain (by decide) (by decide) (by decide)
    | false => exact inside_escape _ _ (escape?_short rfl r)
  case h_7 hline _ _ hback =>
    split
    · next hcontrol => exact inside_escape _ _ (escape?_code (toNat_lt_of_isControlCode hcontrol) r)
    · next hcontrol =>
      have hplain := isPlain_of_not_control (by simpa using hcontrol) hline
      exact inside_plain hc (fun h => hback h.1) (by simp [hplain])
  all_goals exact inside_escape _ _ (escape?_short rfl r)

/-- An escaped text is read up to the quote behind it. -/
theorem inside_escapeFrom_short (cs rest : List Char) (bare bare' : Nat) :
    inside '"' false bare (escapeFrom false bare' cs ++ '"' :: rest) = some (cs, rest) := by
  induction cs generalizing bare bare' with
  | nil => exact inside_closing
  | cons c cs ih =>
    by_cases hc : c = '"'
    · subst hc
      have hread := inside_escape false bare
        (escape?_short (e := '"') rfl (escapeFrom false 0 cs ++ '"' :: rest))
      rwa [ih] at hread
    · have hread := inside_escapeChar hc false bare (escapeFrom false 0 cs ++ '"' :: rest)
      rw [ih] at hread
      simpa [escapeFrom, hc] using hread

/-- Where a quote of the text was written last, the next two are not the closing ones. -/
theorem neverTwo_escapeFrom {bare : Nat} (hbare : 0 < bare) (cs rest : List Char) :
    NeverTwo '"' (escapeFrom true bare cs ++ '"' :: '"' :: '"' :: rest) := by
  intro behind h
  cases cs with
  | nil =>
    obtain rfl : '"' :: rest = behind := (List.cons.inj (List.cons.inj h).2).2
    rfl
  | cons c cs =>
    by_cases hlast : c = '"' ∧ bare < 2
    · -- two quotes stand after this one, so the next one of the text has an escape
      have hsecond : escapeFrom true (bare + 1) cs ++ '"' :: '"' :: '"' :: rest =
          '"' :: behind := by
        simpa [escapeFrom, hlast] using h
      have hhead := head?_escapeFrom_ne_quote true (bare + 1) (by omega) cs
      cases hcs : escapeFrom true (bare + 1) cs with
      | nil =>
        rw [hcs] at hsecond
        obtain rfl : '"' :: '"' :: rest = behind := (List.cons.inj hsecond).2
        rfl
      | cons d r =>
        rw [hcs] at hsecond hhead
        exact absurd (congrArg some (List.cons.inj hsecond).1) hhead
    · obtain ⟨d, r, hd, hor⟩ := escapeFrom_eq_cons true bare c cs
      rw [hd] at h
      obtain rfl : d = '"' := (List.cons.inj h).1
      obtain hback | ⟨rfl, hless⟩ := hor
      · exact absurd hback (by decide)
      · exact absurd ⟨rfl, (hless rfl).2⟩ hlast

/-- A text over several lines is read up to its three quotes, those of the text apart. -/
theorem inside_escapeFrom_long (cs : List Char) {rest : List Char} (hrest : rest.head? ≠ some '"')
    (bare : Nat) :
    inside '"' true bare (escapeFrom true bare cs ++ '"' :: '"' :: '"' :: rest) =
      some (cs, rest) := by
  induction cs generalizing bare with
  | nil => exact inside_long_closing hrest
  | cons c cs ih =>
    by_cases hc : c = '"'
    · subst hc
      by_cases hbare : bare < 2
      · have hread := inside_long_bare hbare
          (neverTwo_escapeFrom (Nat.succ_pos bare) cs rest)
        rw [ih] at hread
        simpa [escapeFrom, hbare] using hread
      · have hread := inside_escape true bare
          (escape?_short (e := '"') rfl (escapeFrom true 0 cs ++ '"' :: '"' :: '"' :: rest))
        rw [ih] at hread
        simpa [escapeFrom, hbare] using hread
    · have hread := inside_escapeChar hc true bare
        (escapeFrom true 0 cs ++ '"' :: '"' :: '"' :: rest)
      rw [ih] at hread
      simpa [escapeFrom, hc] using hread

/-- A literal on one line is read up to the quote behind it. -/
theorem inside_literal_short {cs : List Char} (hplain : ∀ c ∈ cs, isPlain c = true ∧ c ≠ '\'')
    (rest : List Char) (bare : Nat) :
    inside '\'' false bare (cs ++ '\'' :: rest) = some (cs, rest) := by
  induction cs generalizing bare with
  | nil => exact inside_closing
  | cons c cs ih =>
    obtain ⟨hc, hcs⟩ := List.forall_mem_cons.mp hplain
    rw [List.cons_append,
      inside_plain hc.2 (fun h => absurd h.2 (by decide)) (by simp [hc.1]), ih hcs]
    rfl

theorem le_longestRunFrom (q : Char) (run : Nat) (cs : List Char) :
    run ≤ longestRunFrom q run cs := by
  induction cs generalizing run with
  | nil => exact Nat.le_refl run
  | cons c cs ih =>
    rw [longestRunFrom]
    split
    · exact Nat.le_of_succ_le (ih (run + 1))
    · exact Nat.le_max_left _ _

theorem neverTwo_of_longestRunFrom {q : Char} {run : Nat} (hrun : 0 < run) {cs : List Char}
    (h : longestRunFrom q run cs ≤ 2) (rest : List Char) :
    NeverTwo q (cs ++ q :: q :: q :: rest) := by
  intro behind heq
  match cs with
  | [] =>
    obtain rfl : q :: rest = behind := (List.cons.inj (List.cons.inj heq).2).2
    rfl
  | [c] =>
    obtain rfl : q :: q :: rest = behind := (List.cons.inj (List.cons.inj heq).2).2
    rfl
  | c :: d :: cs =>
    obtain ⟨rfl, heq⟩ := List.cons.inj heq
    obtain ⟨rfl, -⟩ := List.cons.inj heq
    have hlong := le_longestRunFrom d (run + 1 + 1) cs
    simp only [longestRunFrom, beq_self_eq_true, if_true] at h
    omega

/-- A literal without a run of three quotes is read up to its own three. -/
theorem inside_literal_long {cs : List Char} (hclean : ∀ c ∈ cs, isControlCode c = false)
    {bare : Nat} (hrun : longestRunFrom '\'' bare cs ≤ 2) {rest : List Char}
    (hrest : rest.head? ≠ some '\'') :
    inside '\'' true bare (cs ++ '\'' :: '\'' :: '\'' :: rest) = some (cs, rest) := by
  induction cs generalizing bare with
  | nil => exact inside_long_closing hrest
  | cons c cs ih =>
    obtain ⟨hc, hcs⟩ := List.forall_mem_cons.mp hclean
    by_cases hquote : c = '\''
    · subst hquote
      have hnext : longestRunFrom '\'' (bare + 1) cs ≤ 2 := by simpa [longestRunFrom] using hrun
      have hbare : bare < 2 :=
        Nat.lt_of_lt_of_le (le_longestRunFrom '\'' (bare + 1) cs) hnext
      rw [List.cons_append,
        inside_long_bare hbare (neverTwo_of_longestRunFrom (Nat.succ_pos bare) hnext rest),
        ih hcs hnext]
      rfl
    · have hnext : longestRunFrom '\'' 0 cs ≤ 2 := by
        have hmax : max bare (longestRunFrom '\'' 0 cs) ≤ 2 := by
          simpa [longestRunFrom, hquote] using hrun
        exact Nat.le_trans (Nat.le_max_right _ _) hmax
      have hplain : (isPlain c || (true && c == '\n')) = true := by
        by_cases hline : c = '\n'
        · simp [hline]
        · simp [isPlain_of_not_control hc hline]
      rw [List.cons_append, inside_plain hquote (fun h => absurd h.2 (by decide)) hplain,
        ih hcs hnext]
      rfl

theorem betweenQuotes?_short {quote : Char} {r : List Char}
    (h : ∀ behind, r ≠ quote :: quote :: behind) :
    betweenQuotes? quote r = inside quote false 0 r := by
  unfold betweenQuotes?
  split
  · next d e r => exact if_neg fun ⟨hd, he⟩ => h r (by rw [hd, he])
  · rfl

theorem betweenQuotes?_long (quote : Char) (r : List Char) :
    betweenQuotes? quote (quote :: quote :: r) = inside quote true 0 (dropNewline r) :=
  if_pos ⟨rfl, rfl⟩

/-- A line end is put in front of a text that has one, and in front of no other. -/
theorem dropNewline_opening {cs body : List Char} (h : '\n' ∉ cs → body.head? ≠ some '\n') :
    dropNewline ((if cs.contains '\n' then ['\n'] else []) ++ body) = body := by
  by_cases hline : '\n' ∈ cs
  · simp [hline, dropNewline]
  · simp only [List.contains_iff_mem, hline, if_false, List.nil_append]
    unfold dropNewline
    split
    · exact absurd rfl (h hline)
    · rfl

/-- The texts that a form of quoting can show. -/
def Quoting.Fits : Quoting → List Char → Prop
  | basic, _ => True
  | literal, cs => plainLiteral cs = true
  | longBasic, _ => True
  | longLiteral, cs => (∀ c ∈ cs, isControlCode c = false) ∧ longestRun '\'' cs ≤ 2

theorem Quoting.fits_ofText (cs : List Char) : (ofText cs).Fits cs := by
  simp only [ofText]
  split_ifs with hbasic hliteral hlong hrun hline
  · trivial
  · exact hliteral
  · trivial
  · simpa [Fits] using hrun
  · trivial
  · trivial

theorem isPlain_of_plainLiteral {cs : List Char} (h : plainLiteral cs = true) :
    ∀ c ∈ cs, isPlain c = true ∧ c ≠ '\'' := by
  simp only [plainLiteral, Bool.and_eq_true, Bool.not_eq_true', List.any_eq_false,
    List.contains_eq_mem, decide_eq_false_iff_not] at h
  obtain ⟨⟨hclean, hline⟩, hquote⟩ := h
  intro c hc
  refine ⟨isPlain_of_not_control (by simpa using hclean c hc) ?_, ?_⟩
  · rintro rfl
    exact hline hc
  · rintro rfl
    exact hquote hc

theorem head?_escapeFrom_ne_newline {cs : List Char} (hline : '\n' ∉ cs) (rest : List Char) :
    (escapeFrom true 0 cs ++ '"' :: rest).head? ≠ some '\n' := by
  cases cs with
  | nil => simp [escapeFrom]
  | cons c cs =>
    obtain ⟨d, r, hd, rfl | ⟨rfl, -⟩⟩ := escapeFrom_eq_cons true 0 c cs
    · simp [hd]
    · intro h
      rw [hd] at h
      exact hline (Option.some.inj h ▸ List.mem_cons_self)

theorem ne_two_quotes {quote : Char} {cs rest : List Char} (hcs : cs.head? ≠ some quote)
    (hrest : rest.head? ≠ some quote) (behind : List Char) :
    cs ++ quote :: rest ≠ quote :: quote :: behind := by
  cases cs with
  | nil =>
    rintro h
    rw [(List.cons.inj h).2] at hrest
    exact hrest rfl
  | cons c cs => exact fun h => hcs (congrArg some (List.cons.inj h).1)

theorem toList_quotedAs_basic (cs : List Char) :
    (quotedAs .basic cs).toList = '"' :: (escapeFrom false 0 cs ++ ['"']) := by
  simp [quotedAs, Quoting.delimiter]

theorem toList_quotedAs_literal (cs : List Char) :
    (quotedAs .literal cs).toList = '\'' :: (cs ++ ['\'']) := by
  simp [quotedAs, Quoting.delimiter]

theorem toList_quotedAs_longBasic (cs : List Char) :
    (quotedAs .longBasic cs).toList =
      '"' :: '"' :: '"' :: ((if cs.contains '\n' then ['\n'] else []) ++
        (escapeFrom true 0 cs ++ ['"', '"', '"'])) := by
  by_cases hline : '\n' ∈ cs <;> simp [quotedAs, Quoting.delimiter, hline]

theorem toList_quotedAs_longLiteral (cs : List Char) :
    (quotedAs .longLiteral cs).toList =
      '\'' :: '\'' :: '\'' :: ((if cs.contains '\n' then ['\n'] else []) ++
        (cs ++ ['\'', '\'', '\''])) := by
  by_cases hline : '\n' ∈ cs <;> simp [quotedAs, Quoting.delimiter, hline]

variable {rest : List Char}

/-- A string is read back whichever form it has, if the text fits the form. -/
theorem string?_quotedAs {q : Quoting} {cs : List Char} (hfits : q.Fits cs)
    (hbasic : rest.head? ≠ some '"') (hliteral : rest.head? ≠ some '\'') :
    string? ((quotedAs q cs).toList ++ rest) = some (String.ofList cs, rest) := by
  cases q with
  | basic =>
    have hhead := head?_escapeFrom_ne_quote false 0 (by simp) cs
    simp only [toList_quotedAs_basic, List.cons_append, List.append_assoc, List.nil_append]
    rw [string?, betweenQuotes?_short (ne_two_quotes hhead hbasic), inside_escapeFrom_short]
    rfl
  | literal =>
    have hplain := isPlain_of_plainLiteral hfits
    have hhead : cs.head? ≠ some '\'' := fun h => (hplain '\'' (List.mem_of_head? h)).2 rfl
    simp only [toList_quotedAs_literal, List.cons_append, List.append_assoc, List.nil_append]
    rw [string?, betweenQuotes?_short (ne_two_quotes hhead hliteral), inside_literal_short hplain]
    rfl
  | longBasic =>
    simp only [toList_quotedAs_longBasic, List.cons_append, List.append_assoc, List.nil_append]
    rw [string?, betweenQuotes?_long,
      dropNewline_opening fun hline => head?_escapeFrom_ne_newline hline _,
      inside_escapeFrom_long cs hbasic]
    rfl
  | longLiteral =>
    have hhead : '\n' ∉ cs → (cs ++ '\'' :: '\'' :: '\'' :: rest).head? ≠ some '\n' := by
      intro hline h
      cases cs with
      | nil => cases h
      | cons c cs => exact hline (Option.some.inj h ▸ List.mem_cons_self)
    simp only [toList_quotedAs_longLiteral, List.cons_append, List.append_assoc, List.nil_append]
    rw [string?, betweenQuotes?_long, dropNewline_opening hhead,
      inside_literal_long hfits.1 hfits.2 hliteral]
    rfl

/-- A written string is read back, whatever stands behind it but a quote. -/
theorem string?_quoted (s : String) (hbasic : rest.head? ≠ some '"')
    (hliteral : rest.head? ≠ some '\'') :
    string? ((quoted s).toList ++ rest) = some (s, rest) := by
  rw [quoted, string?_quotedAs (Quoting.fits_ofText _) hbasic hliteral, String.ofList_toList]

/-- Five quotes are two of the text and three that close it. -/
example : string? "\"\"\"a\"\"\"\"\" b".toList = some ("a\"\"", " b".toList) := by cbv

theorem key?_basic (cs : List Char) :
    key? ((quotedAs .basic cs).toList ++ rest) = some (String.ofList cs, rest) := by
  simp only [toList_quotedAs_basic, List.cons_append, List.append_assoc, List.nil_append]
  rw [key?, inside_escapeFrom_short]
  rfl

theorem key?_literal {cs : List Char} (h : plainLiteral cs = true) :
    key? ((quotedAs .literal cs).toList ++ rest) = some (String.ofList cs, rest) := by
  simp only [toList_quotedAs_literal, List.cons_append, List.append_assoc, List.nil_append]
  rw [key?, inside_literal_short (isPlain_of_plainLiteral h)]
  rfl

theorem key?_bare {c : Char} {cs : List Char} (h : ∀ d ∈ c :: cs, isBareChar d = true)
    (hrest : ∀ d ∈ rest.head?, isBareChar d = false) :
    key? (c :: cs ++ rest) = some (String.ofList (c :: cs), rest) := by
  have hword : (c :: cs ++ rest).takeWhile isBareChar = c :: cs ∧
      (c :: cs ++ rest).dropWhile isBareChar = rest := by
    rw [List.takeWhile_append_of_pos h, List.dropWhile_append_of_pos h]
    cases rest with
    | nil => simp
    | cons d r => simp [hrest d rfl]
  have hbasic : c ≠ '"' := by
    rintro rfl
    exact absurd (h _ List.mem_cons_self) (by decide)
  have hliteral : c ≠ '\'' := by
    rintro rfl
    exact absurd (h _ List.mem_cons_self) (by decide)
  unfold key?
  split
  · exact absurd (List.cons.inj ‹_›).1 hbasic
  · exact absurd (List.cons.inj ‹_›).1 hliteral
  · rw [hword.1, hword.2]
    rfl

/-- A written key is read back where no word goes on behind it. -/
theorem key?_key (s : String) (hrest : ∀ d ∈ rest.head?, isBareChar d = false) :
    key? ((key s).toList ++ rest) = some (s, rest) := by
  simp only [key]
  split_ifs with hbare hbasic hliteral
  · obtain ⟨c, cs, hs⟩ : ∃ c cs, s.toList = c :: cs := by
      cases hs : s.toList with
      | nil => simp [hs] at hbare
      | cons c cs => exact ⟨c, cs, rfl⟩
    have hword : ∀ d ∈ c :: cs, isBareChar d = true := by
      simpa [hs] using hbare
    rw [hs, key?_bare hword hrest, ← hs, String.ofList_toList]
  · rw [key?_basic, String.ofList_toList]
  · rw [key?_literal hliteral, String.ofList_toList]
  · rw [key?_basic, String.ofList_toList]

end Scaffold.Toml
