import Scaffold.Proofs.DocumentTokens

/-!
Only characters that may stand in a text are written.
-/

namespace Scaffold.Yaml

theorem isAllowed_of_isPrintable {c : Char} (h : isPrintable c = true) : isAllowed c = true := by
  simp only [isPrintable, isAllowed, Bool.or_eq_true, Bool.and_eq_true, decide_eq_true_eq,
    beq_iff_eq] at h ⊢
  omega

/-- All characters can be left unescaped. -/
def Printable (cs : List Char) : Prop := ∀ c ∈ cs, isPrintable c = true

@[simp] theorem printable_nil : Printable [] := fun c hc => by cases hc

@[simp] theorem printable_cons {c : Char} {cs : List Char} :
    Printable (c :: cs) ↔ isPrintable c = true ∧ Printable cs := List.forall_mem_cons

@[simp] theorem printable_append {cs ds : List Char} :
    Printable (cs ++ ds) ↔ Printable cs ∧ Printable ds := List.forall_mem_append

@[simp] theorem printable_blanks (n : Nat) : Printable (blanks n) := fun c hc => by
  rw [List.eq_of_mem_replicate hc]
  decide

theorem printable_hexPadded (width n : Nat) :
    Printable (Number.hexPadded Number.upperDigit width n) := by
  induction width generalizing n with
  | zero => exact printable_nil
  | succ width ih =>
    have hdigits : ∀ v < 16, isPrintable (Number.upperDigit v) = true := by decide
    rw [Number.hexPadded, printable_append]
    exact ⟨ih (n / 16), List.forall_mem_singleton.mpr (hdigits _ (Nat.mod_lt n (by decide)))⟩

theorem printable_escaped (c : Char) : Printable (escaped c) := by
  have hback : isPrintable '\\' = true := by decide
  unfold escaped
  cases hname : shortName? c with
  | some x =>
    have hx : isPrintable x = true := by
      unfold shortName? at hname
      split at hname <;> cases hname <;> rfl
    simp [hback, hx]
  | none =>
    by_cases hp : isPrintable c = true
    · simp [hp]
    · have hx : isPrintable 'x' = true := by decide
      have hu : isPrintable 'u' = true := by decide
      have hU : isPrintable 'U' = true := by decide
      simp only [hp, Bool.false_eq_true, if_false]
      split
      · simp [hback, hx, codePoint, printable_hexPadded]
      · split <;> simp [hback, hu, hU, codePoint, printable_hexPadded]

theorem printable_flatMap_escaped (cs : List Char) : Printable (cs.flatMap escaped) := by
  induction cs with
  | nil => exact printable_nil
  | cons c cs ih => exact printable_append.mpr ⟨printable_escaped c, ih⟩

theorem printable_singleBody (n : Nat) (behind : Bool) {cs : List Char} (h : Printable cs) :
    Printable (singleBody n behind cs) := by
  induction cs generalizing behind with
  | nil => cases behind <;> simp [singleBody]
  | cons c cs ih =>
    obtain ⟨hc, hcs⟩ := printable_cons.mp h
    have hcode : Printable (if c == '\'' then ['\'', '\''] else [c]) := by
      have hquote : isPrintable '\'' = true := by decide
      split <;> simp [hquote, hc]
    rw [singleBody]
    split
    · exact printable_cons.mpr ⟨hc, ih true hcs⟩
    · exact printable_append.mpr ⟨printable_append.mpr ⟨by cases behind <;> simp, hcode⟩,
        ih false hcs⟩

theorem printable_literalBody (n : Nat) (behind : Bool) {cs : List Char} (h : Printable cs) :
    Printable (literalBody n behind cs) := by
  induction cs generalizing behind with
  | nil => exact printable_nil
  | cons c cs ih =>
    obtain ⟨hc, hcs⟩ := printable_cons.mp h
    rw [literalBody]
    split
    · exact printable_cons.mpr ⟨hc, ih true hcs⟩
    · cases behind <;> simp [hc, ih false hcs]

theorem printable_literalBlock (n : Nat) {cs : List Char} (h : Printable cs) :
    Printable (literalBlock n cs) := by
  have hmark : Printable (indentMark cs) := by
    unfold indentMark
    split <;> simp
    decide
  have hchomp : Printable (chompMark cs) := by
    have hplus : isPrintable '+' = true := by decide
    have hminus : isPrintable '-' = true := by decide
    rcases chompMark_cases cs with h | h | h <;> simp [h, hplus, hminus]
  have hbar : isPrintable '|' = true := by decide
  have hfeed : isPrintable '\n' = true := by decide
  simp [literalBlock, hbar, hfeed, hmark, hchomp, printable_literalBody n true h]

theorem printable_writeText (n : Nat) (s : String) : Printable (writeText n s) := by
  have hfits := fits_form s
  unfold writeText
  cases hform : form s with
  | plain =>
    rw [hform] at hfits
    have hplain := hfits.2.1
    simp only [fitsPlain, Bool.not_eq_true', Bool.or_eq_false_iff] at hplain
    exact fun c hc => isPrintable_of_isSpecial hplain.1.2 hc
  | single =>
    rw [hform] at hfits
    have hsingle := hfits.1
    simp only [fitsSingle, Bool.not_eq_true', Bool.or_eq_false_iff] at hsingle
    have hquote : isPrintable '\'' = true := by decide
    have hbody := printable_singleBody n false fun c hc => isPrintable_of_isSpecial hsingle.2 hc
    simp [singleQuoted, hquote, hbody]
  | double =>
    have hquote : isPrintable '"' = true := by decide
    simp [doubleQuoted, hquote, printable_flatMap_escaped]
  | literal =>
    rw [hform] at hfits
    have hliteral := hfits.1
    simp only [fitsLiteral, Bool.not_eq_true', Bool.or_eq_false_iff] at hliteral
    exact printable_literalBlock n fun c hc => isPrintable_of_isSpecial hliteral.2 hc

@[simp] theorem isPrintable_blank : isPrintable ' ' = true := by decide

@[simp] theorem isPrintable_newline : isPrintable '\n' = true := by decide

@[simp] theorem isPrintable_colon : isPrintable ':' = true := by decide

@[simp] theorem isPrintable_dash : isPrintable '-' = true := by decide

theorem printable_lineEnd (cs : List Char) : Printable (lineEnd cs) := by
  unfold lineEnd
  split <;> simp

theorem printable_toString (x : Int) : Printable (toString x).toList := by
  have hfits := fitsPlain_toString x
  simp only [fitsPlain, Bool.not_eq_true', Bool.or_eq_false_iff] at hfits
  exact fun c hc => isPrintable_of_isSpecial hfits.1.2 hc

theorem printable_writeEntries {n : Nat} {xs : List Document}
    (h : ∀ x ∈ xs, Printable (writeEntry n x)) : Printable (writeEntries n xs) := by
  induction xs with
  | nil => exact printable_nil
  | cons x xs ih =>
    obtain ⟨hx, hxs⟩ := List.forall_mem_cons.mp h
    simp [writeEntries, hx, ih hxs]

theorem printable_writeMembers {n : Nat} {ms : List (String × Document)}
    (h : ∀ m ∈ ms, PlainKey m.1 ∧ Printable (writeValue n m.2)) :
    Printable (writeMembers n ms) := by
  induction ms with
  | nil => exact printable_nil
  | cons m ms ih =>
    obtain ⟨key, x⟩ := m
    obtain ⟨⟨hkey, hvalue⟩, hms⟩ := List.forall_mem_cons.mp h
    have hchars : Printable key.toList := fun c hc => isPrintable_of_isKeyChar (hkey.chars c hc)
    simp [writeMembers, writeMember, hchars, hvalue, ih hms]

/-- Values and entries of a regular document are printable at every column. -/
theorem printable_of_regular {room : Nat} {x : Document} (hx : Regular room x) (n : Nat) :
    Printable (writeValue n x) ∧ Printable (writeEntry n x) := by
  induction hx generalizing n with
  | text room s =>
    simp [writeValue, writeEntry, endLine_eq, printable_writeText, printable_lineEnd]
  | flag room b =>
    rw [writeValue, writeEntry]
    cases b <;> exact ⟨List.all_eq_true.mp (by decide), List.all_eq_true.mp (by decide)⟩
  | number room x =>
    rw [writeValue, writeEntry]
    simp only [List.cons_append, printable_cons, printable_append, isPrintable_blank,
      isPrintable_newline, printable_toString, printable_nil, and_self]
  | @list room xs _ _ ih =>
    have hentries : ∀ n, Printable (writeEntries n xs) := fun n =>
      printable_writeEntries fun x hx => (ih x hx n).2
    cases xs with
    | nil =>
      rw [writeValue, writeEntry]
      exact ⟨List.all_eq_true.mp (by decide), List.all_eq_true.mp (by decide)⟩
    | cons x xs =>
      have hall := hentries (n + 2)
      simp only [writeEntries, printable_append, List.append_assoc, List.cons_append,
        printable_cons] at hall
      simp [writeValue, writeEntry, hentries n, hall]
  | @record room ms hne keys _ ih =>
    have hmembers : Printable (writeMembers (n + 2) ms) :=
      printable_writeMembers fun m hm => ⟨keys m hm, (ih m hm (n + 2)).1⟩
    obtain ⟨m, ms, rfl⟩ := List.exists_cons_of_ne_nil hne
    simp only [writeMembers, printable_append] at hmembers
    simp [writeValue, writeEntry, hmembers]

theorem printable_write {room : Nat} {ms : List (String × Document)}
    (h : Regular room (.record ms)) : Printable (write (.record ms)) := by
  cases h with
  | record hne keys values =>
    have hmembers : Printable (writeMembers 0 ms) := printable_writeMembers fun m hm =>
      ⟨keys m hm, (printable_of_regular (values m hm) 0).1⟩
    obtain ⟨m, ms, rfl⟩ := List.exists_cons_of_ne_nil hne
    exact hmembers

theorem skipMark_of_printable {l : Lexer} (h : Printable l.cursor.rest) : l.skipMark = l := by
  have hmark : (l.cursor.rest.head? == some '\ufeff') = false := by
    rw [beq_eq_false_iff_ne]
    intro hhead
    exact absurd (h '\ufeff' (List.mem_of_mem_head? hhead)) (by decide)
  simp [Lexer.skipMark, hmark]

/-- A written document is cut into its tokens. -/
theorem tokens?_toYaml {room : Nat} {ms : List (String × Document)}
    (h : Regular room (.record ms)) :
    tokens? (Document.record ms).toYaml = some (tokensOf (.record ms)) := by
  have hprintable := printable_write h
  have hallowed : (write (.record ms)).all isAllowed = true :=
    List.all_eq_true.mpr fun c hc => isAllowed_of_isPrintable (hprintable c hc)
  rw [tokens?, Document.toYaml, String.toList_ofList]
  simp only [hallowed, if_true]
  rw [skipMark_of_printable hprintable]
  exact Lexer.run_write h _ (Nat.lt_succ_self _)

end Scaffold.Yaml
