import Scaffold.Naming.Identifier
import Scaffold.Proofs.Numerals
import Scaffold.Text.Literal

/-!
Literals of the generated language, read by its own rules: which escapes there are, what may stand
for itself between the quotes, and where a literal ends. A quoted text or character is one literal
from its first character to its last, it means just what was quoted, and it stays on its line.
-/

namespace Scaffold

namespace Number

theorem foldlM_hexDigits (n : Nat) :
    (hexDigits lowerDigit n).foldlM (fun n c => (digit? 16 c).map (16 * n + ·)) 0 = some n := by
  induction n using Nat.strongRecOn with
  | ind n ih =>
    rw [hexDigits]
    split
    · next hn => simp [digit?_lowerDigit n hn]
    · next hn =>
      rw [List.foldlM_append, ih (n / 16) (by omega)]
      simp only [Option.bind_eq_bind, Option.bind_some, List.foldlM_cons, List.foldlM_nil,
        digit?_lowerDigit (n % 16) (by omega), Option.map_some]
      exact congrArg some (Nat.div_add_mod n 16)

theorem hexDigits_ne_nil (n : Nat) : hexDigits lowerDigit n ≠ [] := by
  rw [hexDigits]
  split <;> simp

theorem digits?_hexDigits (n : Nat) : digits? 16 (hexDigits lowerDigit n) = some n := by
  rw [digits?, if_neg (by simpa using hexDigits_ne_nil n)]
  exact foldlM_hexDigits n

theorem length_hexDigits_le {n width : Nat} (hwidth : 0 < width) (h : n < Nat.pow 16 width) :
    (hexDigits lowerDigit n).length ≤ width := by
  induction width generalizing n with
  | zero => exact absurd hwidth (Nat.lt_irrefl 0)
  | succ width ih =>
    rw [hexDigits]
    split
    · simp
    · next hn =>
      have hwidth : 0 < width := by
        rcases Nat.eq_zero_or_pos width with rfl | hpos
        · exact absurd h hn
        · exact hpos
      have hless : n / 16 < Nat.pow 16 width := Nat.div_lt_of_lt_mul (Nat.mul_comm _ 16 ▸ h)
      have hfront := ih hwidth hless
      simpa using hfront

/-- What holds of the sixteen digits holds of all that are written. -/
theorem forall_mem_hexDigits {p : Char → Prop} (h : ∀ v < 16, p (lowerDigit v)) (n : Nat) :
    ∀ c ∈ hexDigits lowerDigit n, p c := by
  induction n using Nat.strongRecOn with
  | ind n ih =>
    rw [hexDigits]
    split
    · next hn => simpa using h n hn
    · next hn =>
      rw [List.forall_mem_append]
      exact ⟨ih (n / 16) (by omega), by simpa using h (n % 16) (by omega)⟩

end Number

namespace Source

/-- What a literal means. -/
inductive Literal where
  | text (s : String)
  | char (c : Char)
  deriving DecidableEq, Repr

namespace Literal

/-- How much of an escape has been read behind its backslash. -/
inductive Escape where
  | start
  /-- In the two digits of a byte. -/
  | byte (first : Option Char)
  /-- In front of the brace of a code point. -/
  | brace
  | point (digits : List Char)

/-- The character that one letter behind a backslash names. -/
def shortEscape? : Char → Option Char
  | 'n' => some '\n'
  | 'r' => some '\r'
  | 't' => some '\t'
  | '0' => some '\x00'
  | '\\' => some '\\'
  | '\'' => some '\''
  | '"' => some '"'
  | _ => none

/-- A byte names a character of ASCII. -/
def byte? (first second : Char) : Option Char := do
  let n ← Number.digits? 16 [first, second]
  if n < 128 then some (Char.ofNat n) else none

/-- One to six digits and underscores between them, for a code point that is no surrogate. -/
def codePoint? (digits : List Char) : Option Char := do
  let hex := digits.filter (· != '_')
  if digits.head? = some '_' ∨ 6 < hex.length then none
  else
    let n ← Number.digits? 16 hex
    if n.isValidChar then some (Char.ofNat n) else none

/-- The escape behind one more character, or the character that it names. -/
def Escape.step : Escape → Char → Option (Escape ⊕ Char)
  | .start, c =>
    if c = 'x' then some (.inl (.byte none))
    else if c = 'u' then some (.inl .brace)
    else (shortEscape? c).map .inr
  | .byte none, c => some (.inl (.byte (some c)))
  | .byte (some first), c => (byte? first c).map .inr
  | .brace, c => if c = '{' then some (.inl (.point [])) else none
  | .point digits, c =>
    if c = '}' then (codePoint? digits).map .inr else some (.inl (.point (digits ++ [c])))

/-- What is left of an escape names a character with its last one. -/
inductive Escape.Names (c : Char) : Escape → List Char → Prop
  | last {e d} : e.step d = some (.inr c) → Names c e [d]
  | next {e e' d rest} : e.step d = some (.inl e') → Names c e' rest → Names c e (d :: rest)

theorem codePoint?_hexDigits (c : Char) :
    codePoint? (Number.hexDigits Number.lowerDigit c.toNat) = some c := by
  have hplain : ∀ d ∈ Number.hexDigits Number.lowerDigit c.toNat, d ≠ '_' :=
    Number.forall_mem_hexDigits (by decide) _
  have hfilter : (Number.hexDigits Number.lowerDigit c.toNat).filter (· != '_') =
      Number.hexDigits Number.lowerDigit c.toNat := by
    simpa [List.filter_eq_self] using hplain
  have hhead : (Number.hexDigits Number.lowerDigit c.toNat).head? ≠ some '_' := fun h =>
    hplain '_' (List.mem_of_mem_head? h) rfl
  have hvalid : c.toNat.isValidChar := c.valid
  have hlength : (Number.hexDigits Number.lowerDigit c.toNat).length ≤ 6 := by
    have hbound : 1114112 < Nat.pow 16 6 := by decide
    refine Number.length_hexDigits_le (by decide) (Nat.lt_trans ?_ hbound)
    rw [Nat.isValidChar] at hvalid
    omega
  simp only [codePoint?, hfilter]
  rw [if_neg (by simp [hhead]; omega), Number.digits?_hexDigits]
  simp [hvalid]

/-- Digits and the closing brace name the code point that the digits are of. -/
theorem Escape.names_point (c : Char) (done rest : List Char) (hrest : '}' ∉ rest)
    (hpoint : codePoint? (done ++ rest) = some c) :
    Escape.Names c (.point done) (rest ++ ['}']) := by
  induction rest generalizing done with
  | nil =>
    rw [List.append_nil] at hpoint
    exact .last (by simp [step, hpoint])
  | cons d rest ih =>
    obtain ⟨hd, hrest⟩ := not_or.mp (mt List.mem_cons.mpr hrest)
    have hstep : (point done).step d = some (.inl (.point (done ++ [d]))) := by
      simp [step, Ne.symm hd]
    exact .next hstep (ih _ hrest (by rwa [List.append_assoc]))

theorem Escape.names_codePoint (c : Char) :
    Escape.Names c .start
      ('u' :: '{' :: (Number.hexDigits Number.lowerDigit c.toNat ++ ['}'])) := by
  have hbrace : '}' ∉ Number.hexDigits Number.lowerDigit c.toNat := fun h =>
    Number.forall_mem_hexDigits (p := (· ≠ '}')) (by decide) c.toNat _ h rfl
  exact .next rfl (.next rfl (names_point c [] _ hbrace (codePoint?_hexDigits c)))

open Text

/-- A character between quotes stands for itself, or a backslash and an escape stand for it. -/
theorem escape_cases {quote : Char} (hquote : quote = '"' ∨ quote = '\'') (c : Char) :
    (escape quote c = [c] ∧ c ≠ quote ∧ c ≠ '\\' ∧ isVisible c = true) ∨
      ∃ rest, escape quote c = '\\' :: rest ∧ Escape.Names c .start rest := by
  unfold escape
  split
  case h_6 _ _ _ _ hback =>
    by_cases heq : c = quote
    · refine .inr ⟨[c], by simp [heq], .last ?_⟩
      rcases hquote with rfl | rfl <;> simp [heq, Escape.step, shortEscape?]
    · by_cases hvisible : isVisible c = true
      · exact .inl ⟨by simp [heq, hvisible], heq, hback, hvisible⟩
      · exact .inr ⟨_, by simp [heq, hvisible], Escape.names_codePoint c⟩
  all_goals exact .inr ⟨_, rfl, .last rfl⟩

/-- The characters that end a line for some reader of the text. -/
def lineBreaks : List Char :=
  ['\n', '\x0b', '\x0c', '\r', '\u0085', '\u2028', '\u2029']

theorem isVisible_lineBreaks : ∀ c ∈ lineBreaks, isVisible c = false := by
  simp only [lineBreaks, List.forall_mem_cons, List.not_mem_nil, false_implies, implies_true,
    and_true]
  decide +kernel

theorem isVisible_of_mem_escape {quote : Char} (hquote : isVisible quote = true) (c : Char) :
    ∀ d ∈ escape quote c, isVisible d = true := by
  unfold escape
  split
  case h_6 =>
    split
    · next heq =>
      obtain rfl : c = quote := by simpa using heq
      simpa [hquote] using (by decide : isVisible '\\' = true)
    · split
      · next hvisible => simpa using hvisible
      · have hdigits := Number.forall_mem_hexDigits (p := (isVisible · = true)) (by decide) c.toNat
        simp only [List.forall_mem_append]
        exact ⟨⟨List.all_eq_true.mp (by decide), hdigits⟩, List.all_eq_true.mp (by decide)⟩
  all_goals exact List.all_eq_true.mp (by decide)

/-- Where in a literal a reader is. -/
inductive Cursor where
  | text (read : List Char)
  | textEscape (read : List Char) (e : Escape)
  /-- In the blanks behind a line end that is escaped. -/
  | skipped (read : List Char)
  /-- Behind the quote of a character. -/
  | tick
  | single (c : Char)
  | charEscape (e : Escape)
  /-- Behind an escape that is the character. -/
  | escaped (c : Char)
  | closed (l : Literal)

namespace Cursor

def open? : Char → Option Cursor
  | '"' => some (.text [])
  | '\'' => some .tick
  | _ => none

/-- One more character of a text. A carriage return does not stand for itself. -/
def inText (read : List Char) (c : Char) : Option Cursor :=
  if c = '"' then some (.closed (.text (String.ofList read)))
  else if c = '\\' then some (.textEscape read .start)
  else if c = '\r' then none
  else some (.text (read ++ [c]))

def close (c d : Char) : Option Cursor := if d = '\'' then some (.closed (.char c)) else none

def step : Cursor → Char → Option Cursor
  | text read, c => inText read c
  | textEscape read .start, '\n' => some (.skipped read)
  | textEscape read e, c =>
    (e.step c).map (Sum.elim (textEscape read) fun d => text (read ++ [d]))
  | skipped read, c =>
    if c ∈ [' ', '\t', '\n', '\r'] then some (.skipped read) else inText read c
  | tick, c =>
    if c = '\\' then some (.charEscape .start)
    else if c ∈ ['\'', '\t', '\n', '\r'] then none
    else some (.single c)
  | single c, d => close c d
  | charEscape e, c => (e.step c).map (Sum.elim charEscape escaped)
  | escaped c, d => close c d
  | closed _, _ => none

variable {c : Char} {e : Escape} {rest : List Char}

/-- Only an escaped line end is no escape of a character. -/
theorem step_textEscape {d : Char} {r : Escape ⊕ Char} (h : e.step d = some r)
    (read : List Char) :
    step (.textEscape read e) d =
      some (r.elim (textEscape read) fun c => text (read ++ [c])) := by
  rw [step.eq_def]
  split
  case h_2 heq =>
    obtain ⟨rfl, rfl⟩ := Cursor.textEscape.inj heq
    cases h
  case h_3 heq _ =>
    obtain ⟨rfl, rfl⟩ := Cursor.textEscape.inj heq
    rw [h, Option.map_some]
  all_goals
    next heq => cases heq

theorem foldlM_textEscape (h : Escape.Names c e rest) (read : List Char) :
    rest.foldlM step (.textEscape read e) = some (.text (read ++ [c])) := by
  induction h with
  | last hstep => simp [step_textEscape hstep]
  | next hstep _ ih => simp [step_textEscape hstep, ih]

theorem foldlM_charEscape (h : Escape.Names c e rest) :
    rest.foldlM step (.charEscape e) = some (.escaped c) := by
  induction h with
  | last hstep => simp [step, hstep]
  | next hstep _ ih => simp [step, hstep, ih]

/-- A quoted character takes a text on by that character. -/
theorem foldlM_escape (c : Char) (read : List Char) :
    (Text.escape '"' c).foldlM step (.text read) = some (.text (read ++ [c])) := by
  rcases escape_cases (.inl rfl) c with ⟨hplain, hquote, hback, hvisible⟩ | ⟨rest, hescape, hnames⟩
  · have hreturn : c ≠ '\r' := by
      rintro rfl
      exact absurd hvisible (by decide)
    simp [hplain, step, inText, hquote, hback, hreturn]
  · rw [hescape, List.foldlM_cons]
    exact foldlM_textEscape hnames read

theorem foldlM_flatMap_escape (cs read : List Char) :
    (cs.flatMap (Text.escape '"')).foldlM step (.text read) = some (.text (read ++ cs)) := by
  induction cs generalizing read with
  | nil => simp
  | cons c cs ih =>
    rw [List.flatMap_cons, List.foldlM_append, foldlM_escape]
    exact (ih (read ++ [c])).trans (by simp)

theorem foldlM_quoted (s : String) :
    (s.toList.flatMap (Text.escape '"') ++ ['"']).foldlM step (.text []) =
      some (.closed (.text s)) := by
  rw [List.foldlM_append, foldlM_flatMap_escape]
  simp [step, inText]

theorem foldlM_quotedChar (c : Char) :
    (Text.escape '\'' c ++ ['\'']).foldlM step .tick = some (.closed (.char c)) := by
  rcases escape_cases (.inr rfl) c with ⟨hplain, hquote, hback, hvisible⟩ | ⟨rest, hescape, hnames⟩
  · have hcontrol : c ∉ ['\'', '\t', '\n', '\r'] := by
      intro hc
      simp only [List.mem_cons, hquote, List.not_mem_nil, false_or, or_false] at hc
      rcases hc with rfl | rfl | rfl <;> exact absurd hvisible (by decide)
    simp only [hplain, List.singleton_append, List.foldlM_cons, List.foldlM_nil, step, hback,
      hcontrol, if_false]
    rfl
  · have hopen : step .tick '\\' = some (.charEscape .start) := rfl
    rw [hescape, List.cons_append, List.foldlM_cons, hopen, Option.bind_eq_bind, Option.bind_some,
      List.foldlM_append, foldlM_charEscape hnames]
    rfl

end Cursor

/-- The literal that a text is from its first character to its last. -/
def ofText? (text : String) : Option Literal :=
  match text.toList with
  | [] => none
  | c :: cs =>
    match (Cursor.open? c).bind (cs.foldlM Cursor.step) with
    | some (.closed l) => some l
    | _ => none

theorem ofText?_quoted (s : String) : ofText? (Text.quoted s) = some (.text s) := by
  have hlist : (Text.quoted s).toList = '"' :: (s.toList.flatMap (Text.escape '"') ++ ['"']) := by
    simp [Text.quoted, Text.quoteChars]
  simp only [ofText?, hlist, Cursor.open?, Option.bind_some, Cursor.foldlM_quoted]

theorem ofText?_quotedChar (c : Char) : ofText? (Text.quotedChar c) = some (.char c) := by
  have hlist : (Text.quotedChar c).toList = '\'' :: (Text.escape '\'' c ++ ['\'']) := by
    simp [Text.quotedChar]
  simp only [ofText?, hlist, Cursor.open?, Option.bind_some, Cursor.foldlM_quotedChar]

/-- No reader of the text sees a second line. -/
def OneLine (text : String) : Prop := ∀ c ∈ text.toList, c ∉ lineBreaks

theorem oneLine_of_visible {text : String} (h : ∀ c ∈ text.toList, isVisible c = true) :
    OneLine text := by
  intro c hc hbreak
  have hvisible := h c hc
  rw [isVisible_lineBreaks c hbreak] at hvisible
  cases hvisible

theorem oneLine_quoted (s : String) : OneLine (Text.quoted s) := by
  refine oneLine_of_visible ?_
  have hquote : isVisible '"' = true := by decide
  simp only [Text.quoted, Text.quoteChars, String.toList_ofList, List.forall_mem_append,
    List.forall_mem_cons, List.forall_mem_flatMap]
  exact ⟨⟨hquote, fun c _ => isVisible_of_mem_escape hquote c⟩, hquote, nofun⟩

theorem oneLine_quotedChar (c : Char) : OneLine (Text.quotedChar c) := by
  refine oneLine_of_visible ?_
  have hquote : isVisible '\'' = true := by decide
  simp only [Text.quotedChar, String.toList_ofList, List.forall_mem_append, List.forall_mem_cons]
  exact ⟨⟨hquote, isVisible_of_mem_escape hquote c⟩, hquote, nofun⟩

end Literal

end Source

end Scaffold
