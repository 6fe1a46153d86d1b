import Scaffold.Proofs.ScalarTokens

/-!
A written document gives its tokens. A key opens the record it is the first of, a dash stands at the
column of the key whose list it belongs to, and a record is over where a line starts further left.
-/

namespace Scaffold.Yaml

namespace Lexer

variable {indent : Int} {outer : List Int} {ts res : List Token} {n i l k : Nat} {r : List Char}

theorem opensPlain_of_isKeyChar {c : Char} (hc : isKeyChar c = true) (r : List Char) :
    OpensPlain c r := by
  refine ⟨isGap_of_isKeyChar hc, isFirstMark_of_isKeyChar hc, ?_⟩
  rw [no_indicator_of_isKeyChar hc, Bool.false_and]

section

variable (c : Cursor) (allowed : Bool) (k : Option Candidate) (later : List Token) (t : Token)

/-- A token takes its place in front of those that came later. -/
theorem insert_laid :
    (laid c indent outer allowed k (later ++ ts)).insert ts.length t =
      laid c indent outer allowed k (later ++ t :: ts) := by
  have hcount : (later ++ ts).length - ts.length = later.length := by
    rw [List.length_append, Nat.add_sub_cancel]
  have hlength : (later ++ t :: ts).length = (later ++ ts).length + 1 := by simp; omega
  simp only [insert, count_laid, tokens_laid, hcount, List.take_left, List.drop_left]
  rw [laid, laid, hlength]

theorem openBlock_of_le {column : Nat} (h : (column : Int) ≤ indent) (position : Option Nat) :
    (laid c indent outer allowed k ts).openBlock column position t =
      laid c indent outer allowed k ts := by
  simp [openBlock, h]

theorem openBlock_of_lt {column : Nat} (h : indent < column) :
    (laid c indent outer allowed k (later ++ ts)).openBlock column (some ts.length) t =
      laid c column (indent :: outer) allowed k (later ++ t :: ts) := by
  have hright : ¬ (column : Int) ≤ indent := Int.not_le.mpr h
  simp only [openBlock, inFlow_laid, indent_laid, hright, decide_false, Bool.or_self,
    Bool.false_eq_true, if_false, insert_laid]
  rfl

end

/-- A colon behind the candidate makes a key of it. The record that has the key is the innermost
block, or else is opened there. -/
theorem value?_member {c c₀ : Cursor} (h : (c₀.column : Int) = indent) (t : Token) :
    (laid c indent outer false (some (candidateAt c₀ indent ts)) (t :: ts)).value? =
      some (laid (c.advance 1) c₀.column outer false none (.value :: t :: .key :: ts)) := by
  have hkey : (laid c indent outer false (some (candidateAt c₀ indent ts)) (t :: ts)).insert
      ts.length .key = laid c indent outer false (some (candidateAt c₀ indent ts))
        (t :: .key :: ts) := insert_laid c false _ [t] .key
  rw [value?, candidate_laid]
  simp only [candidateAt] at hkey ⊢
  rw [hkey, openBlock_of_le _ _ _ _ (Int.le_of_eq h), h]
  rfl

theorem value?_open {c c₀ : Cursor} (h : indent < c₀.column) (t : Token) :
    (laid c indent outer false (some (candidateAt c₀ indent ts)) (t :: ts)).value? =
      some (laid (c.advance 1) c₀.column (indent :: outer) false none
        (.value :: t :: .key :: .blockRecordStart :: ts)) := by
  have hkey : (laid c indent outer false (some (candidateAt c₀ indent ts)) (t :: ts)).insert
      ts.length .key = laid c indent outer false (some (candidateAt c₀ indent ts))
        (t :: .key :: ts) := insert_laid c false _ [t] .key
  have hopen : (laid c indent outer false (some (candidateAt c₀ indent ts))
      (t :: .key :: ts)).openBlock c₀.column (some ts.length) .blockRecordStart =
        laid c c₀.column (indent :: outer) false (some (candidateAt c₀ indent ts))
          (t :: .key :: .blockRecordStart :: ts) :=
    openBlock_of_lt c false _ [t, .key] .blockRecordStart h
  rw [value?, candidate_laid]
  simp only [candidateAt] at hkey hopen ⊢
  rw [hkey, hopen]
  rfl

/-- The key is a scalar, noted as the place where a key may start. -/
theorem token?_key {key : String} (hkey : PlainKey key) (hr : gapAhead r = true)
    (indent : Int) (i l k : Nat) {c : Char} {cs : List Char} (hcs : key.toList = c :: cs) :
    (laid ⟨key.toList ++ ':' :: r, i, l, k⟩ indent outer true none ts).token? c (cs ++ ':' :: r) =
      some (laid ⟨':' :: r, i + key.toList.length, l, k + key.toList.length⟩ indent outer false
        (some (candidateAt ⟨key.toList ++ ':' :: r, i, l, k⟩ indent ts))
        (.scalar .plain key :: ts)) := by
  have hc : isKeyChar c = true := hkey.chars c (by rw [hcs]; exact List.mem_cons_self)
  have hrule : ∀ m, isKeyChar m = false →
      (⟨key.toList ++ ':' :: r, i, l, k⟩ : Cursor).atRule m = false := fun m hm => by
    rw [hcs]
    exact atRule_of_ne (ne_of_isKeyChar hc hm) _ _ _ _
  rw [(opensPlain_of_isKeyChar hc _).token? rfl (hrule '-' (by decide)) (hrule '.' (by decide)),
    plainScalar?_laid (hkey.plain?_eq hr indent i l k), String.ofList_toList]
  rfl

theorem token?_colon {x : Lexer} (hr : gapAhead r = true) (hdash : x.cursor.atRule '-' = false)
    (hdot : x.cursor.atRule '.' = false) : x.token? ':' r = x.value? := by
  rw [token?, hdash, hdot]
  simp [hr]

/-- A colon on the line of a candidate, and in time. -/
theorem Yields.colon (hr : gapAhead r = true) {c₀ : Cursor} (hline : c₀.line = l)
    (hindex : i ≤ c₀.index + 1024) (hindent : indent ≤ k) {t : Token} {x : Lexer}
    (hvalue : (laid ⟨':' :: r, i, l, k⟩ indent outer false (some (candidateAt c₀ indent ts))
      (t :: ts)).value? = some x) (hx : x.cursor.rest = r) (h : x.Yields res) :
    (laid ⟨':' :: r, i, l, k⟩ indent outer false (some (candidateAt c₀ indent ts))
      (t :: ts)).Yields res := by
  have hcolon : Visible (':' :: r) := visible_cons rfl (by decide) r
  have hsettle : (laid ⟨':' :: r, i, l, k⟩ indent outer false (some (candidateAt c₀ indent ts))
      (t :: ts)).settle? = some (laid ⟨':' :: r, i, l, k⟩ indent outer false
        (some (candidateAt c₀ indent ts)) (t :: ts)) :=
    (congrArg dropStale? (skipToToken_blanks 0 hcolon _ false _)).trans
      (dropStale?_fresh hline hindex false)
  refine Yields.step hsettle rfl ?_ (hx ▸ Nat.lt_succ_self _) h
  rw [cursor_laid, closeBlocks_of_le hindent, token?_colon hr, hvalue]
  · exact atRule_of_ne (by decide) _ _ _ _
  · exact atRule_of_ne (by decide) _ _ _ _

/-- A key at the column of a record, and the colon behind it. -/
theorem Lines.key {key : String} (hkey : PlainKey key) (hr : gapAhead r = true)
    (hindent : indent ≤ n) {outer' : List Int} {ts' : List Token}
    (hvalue : ∀ c c₀ : Cursor, c₀.column = n → ∀ t,
      (laid c indent outer false (some (candidateAt c₀ indent ts)) (t :: ts)).value? =
        some (laid (c.advance 1) n outer' false none (.value :: t :: .key :: ts')))
    (h : ∀ i l k, n < k → (laid ⟨r, i, l, k⟩ n outer' false none
      (.value :: .scalar .plain key :: .key :: ts')).Yields res) :
    Lines (blanks n ++ (key.toList ++ ':' :: r)) indent outer ts res := by
  obtain ⟨c, cs, hcs, hc⟩ := hkey.exists_eq_cons
  have hvisible : Visible (key.toList ++ ':' :: r) := by
    rw [hcs]
    exact (opensPlain_of_isKeyChar hc _).visible
  refine lines_of_visible hvisible fun i l k j hk => ?_
  obtain rfl := hk
  have hcolon := hvalue
    ⟨':' :: r, i + j + key.toList.length, l, k + j + key.toList.length⟩
    ⟨key.toList ++ ':' :: r, i + j, l, k + j⟩ rfl (.scalar .plain key)
  have hfirst : key.toList ++ ':' :: r = c :: (cs ++ ':' :: r) := by rw [hcs, List.cons_append]
  refine Yields.step (settle?_blanks j hvisible true) hfirst ?_ ?_
    (Yields.colon hr rfl ?_ ?_ hcolon rfl (h _ _ _ ?_))
  · rw [cursor_laid, closeBlocks_of_le hindent, token?_key hkey hr indent _ _ _ hcs]
  · have hlength := List.length_pos_iff.mpr hkey.ne_nil
    simp only [cursor_laid, List.length_append, List.length_cons]
    omega
  · exact Nat.add_le_add_left hkey.length_le _
  · omega
  · have hlength := List.length_pos_iff.mpr hkey.ne_nil
    show k + j < k + j + key.toList.length + 1
    omega

theorem atRule_of_gapAhead (hr : gapAhead r = true) (c : Char) :
    (⟨c :: r, i, l, k⟩ : Cursor).atRule '-' = false := by
  rcases r with _ | ⟨y, _ | ⟨z, r⟩⟩
  · simp [Cursor.atRule]
  · simp [Cursor.atRule]
  · have hy : (y == '-') = false := by
      rw [beq_eq_false_iff_ne]
      rintro rfl
      exact Bool.false_ne_true hr
    simp [Cursor.atRule, hy]

theorem token?_dash {x : Lexer} (hr : gapAhead r = true) (hdash : x.cursor.atRule '-' = false)
    (hdot : x.cursor.atRule '.' = false) : x.token? '-' r = x.blockEntry? := by
  rw [token?, hdash, hdot]
  simp [hr]

/-- A dash at the column of the record whose member the list is. -/
theorem Lines.dash (hr : gapAhead r = true)
    (h : ∀ i l, (laid ⟨r, i, l, n + 1⟩ n outer true none (.blockEntry :: ts)).Yields res) :
    Lines (blanks n ++ '-' :: r) n outer ts res := by
  have hvisible : Visible ('-' :: r) := visible_cons rfl (by decide) r
  refine lines_of_visible hvisible fun i l k j hk => ?_
  subst hk
  refine Yields.step (settle?_blanks j hvisible true) rfl ?_ ?_ (h (i + j + 1) l)
  · rw [cursor_laid, closeBlocks_of_le (Int.le_refl _), token?_dash hr (atRule_of_gapAhead hr _)
      (atRule_of_ne (by decide) _ _ _ _), blockEntry?]
    simp only [inFlow_laid, keyAllowed_laid, cursor_laid, Bool.false_eq_true, if_false, if_true]
    rw [openBlock_of_le _ _ _ _ (Int.le_refl _)]
    rfl
  · simp only [cursor_laid, List.length_append, List.length_cons]
    omega

end Lexer

mutual

/-- The tokens of a document. A list has none that open and close it, as it stands at the column of
its key. -/
def tokensOf : Document → List Token
  | .text s => [.scalar (textStyle s) s]
  | .flag b => [.scalar .plain (if b then "true" else "false")]
  | .number n => [.scalar .plain (toString n)]
  | .list [] => [.flowListStart, .flowListEnd]
  | .list (x :: xs) => entryTokens (x :: xs)
  | .record ms => .blockRecordStart :: memberTokens ms ++ [.blockEnd]

def entryTokens : List Document → List Token
  | [] => []
  | x :: xs => .blockEntry :: tokensOf x ++ entryTokens xs

def memberTokens : List (String × Document) → List Token
  | [] => []
  | (key, x) :: ms => .key :: .scalar .plain key :: .value :: tokensOf x ++ memberTokens ms

end

theorem gapAhead_writeValue (n : Nat) (x : Document) (r : List Char) :
    gapAhead (writeValue n x ++ r) = true := by
  cases x with
  | text s => rfl
  | flag b => cases b <;> rfl
  | number n => rfl
  | list xs => cases xs <;> rfl
  | record ms => cases ms <;> rfl

theorem gapAhead_writeEntry (n : Nat) (x : Document) (r : List Char) :
    gapAhead (writeEntry n x ++ r) = true := by
  cases x with
  | text s => rfl
  | flag b => cases b <;> rfl
  | number n => rfl
  | list xs => cases xs <;> rfl
  | record ms => cases ms <;> rfl

namespace Lexer

/-- Behind its key the value is found, and the lines behind it are read on. -/
def FoundBehindKey (x : Document) : Prop :=
  ∀ (n i l k : Nat) (outer : List Int) (ts res : List Token) (r : List Char), n < k → Below n r →
    Lines r n outer ((tokensOf x).reverse ++ ts) res →
      (laid ⟨writeValue n x ++ r, i, l, k⟩ n outer false none ts).Yields res

/-- Behind its dash the entry is found, and the lines behind it are read on. -/
def FoundBehindDash (x : Document) : Prop :=
  ∀ (n i l : Nat) (outer : List Int) (ts res : List Token) (r : List Char), Below n r →
    Lines r n outer ((tokensOf x).reverse ++ ts) res →
      (laid ⟨writeEntry n x ++ r, i, l, n + 1⟩ n outer true none ts).Yields res

variable {indent : Int} {outer : List Int} {ts res : List Token} {n i l k : Nat} {r : List Char}

theorem Below.mono {m n : Nat} (h : Below m r) (hle : m ≤ n) : Below n r := by
  obtain ⟨m', body, rfl, hm, hbody⟩ := h
  exact ⟨m', body, rfl, Nat.le_trans hm hle, hbody⟩

theorem below_writeMembers (hr : Below n r) {ms : List (String × Document)}
    (hms : ∀ m ∈ ms, PlainKey m.1) : Below n (writeMembers n ms ++ r) := by
  cases ms with
  | nil => exact hr
  | cons m ms =>
    obtain ⟨c, cs, hcs, hc⟩ := (hms m List.mem_cons_self).exists_eq_cons
    refine ⟨n, writeMember n m ++ (writeMembers n ms ++ r), ?_, Nat.le_refl n, ?_⟩
    · simp [writeMembers]
    · rw [writeMember, hcs]
      exact (opensPlain_of_isKeyChar hc _).visible

theorem lines_members (hr : Below n r) {ms : List (String × Document)}
    (hms : ∀ m ∈ ms, PlainKey m.1 ∧ FoundBehindKey m.2)
    (h : Lines r n outer ((memberTokens ms).reverse ++ ts) res) :
    Lines (writeMembers n ms ++ r) n outer ts res := by
  induction ms generalizing ts with
  | nil => exact h
  | cons m ms ih =>
    obtain ⟨key, x⟩ := m
    obtain ⟨hkey, hx⟩ := hms (key, x) List.mem_cons_self
    have hrest : ∀ m ∈ ms, PlainKey m.1 ∧ FoundBehindKey m.2 := fun m hm =>
      hms m (List.mem_cons_of_mem _ hm)
    simp only [writeMembers, writeMember, List.append_assoc, List.cons_append]
    refine Lines.key hkey (gapAhead_writeValue n x _) (Int.le_refl _)
      (fun c c₀ hc t => hc ▸ value?_member rfl t) fun i l k hk => ?_
    refine hx n i l k _ _ _ _ hk (below_writeMembers hr fun m hm => (hrest m hm).1) (ih hrest ?_)
    simpa [memberTokens] using h

/-- The members of a record that is the innermost block from its first key on. -/
theorem lines_open (hindent : indent < n) (hr : Below n r) {ms : List (String × Document)}
    (hne : ms ≠ []) (hms : ∀ m ∈ ms, PlainKey m.1 ∧ FoundBehindKey m.2)
    (h : Lines r n (indent :: outer) ((memberTokens ms).reverse ++ .blockRecordStart :: ts) res) :
    Lines (writeMembers n ms ++ r) indent outer ts res := by
  obtain ⟨⟨key, x⟩, ms, rfl⟩ := List.exists_cons_of_ne_nil hne
  obtain ⟨hkey, hx⟩ := hms (key, x) List.mem_cons_self
  have hrest : ∀ m ∈ ms, PlainKey m.1 ∧ FoundBehindKey m.2 := fun m hm =>
    hms m (List.mem_cons_of_mem _ hm)
  simp only [writeMembers, writeMember, List.append_assoc, List.cons_append]
  refine Lines.key hkey (gapAhead_writeValue n x _) (Int.le_of_lt hindent)
    (fun c c₀ hc t => hc ▸ value?_open (hc ▸ hindent) t) fun i l k hk => ?_
  refine hx n i l k _ _ _ _ hk (below_writeMembers hr fun m hm => (hrest m hm).1)
    (lines_members hr hrest ?_)
  simpa [memberTokens] using h

/-- A record inside of another block is over where the lines of that block go on. -/
theorem lines_record {m : Nat} (hm : m < n) (hindent : indent < n) (hr : Below m r)
    {ms : List (String × Document)} (hne : ms ≠ [])
    (hms : ∀ m ∈ ms, PlainKey m.1 ∧ FoundBehindKey m.2)
    (h : Lines r indent outer ((tokensOf (.record ms)).reverse ++ ts) res) :
    Lines (writeMembers n ms ++ r) indent outer ts res := by
  refine lines_open hindent (hr.mono (Nat.le_of_lt hm)) hne hms (Lines.close hr (by omega) ?_)
  simpa [tokensOf] using h

theorem below_writeEntries (hr : Below n r) (xs : List Document) :
    Below n (writeEntries n xs ++ r) := by
  cases xs with
  | nil => exact hr
  | cons x xs =>
    refine ⟨n, '-' :: (writeEntry n x ++ (writeEntries n xs ++ r)), ?_, Nat.le_refl n,
      visible_cons rfl (by decide) _⟩
    simp [writeEntries]

theorem lines_entries (hr : Below n r) {xs : List Document} (hxs : ∀ x ∈ xs, FoundBehindDash x)
    (h : Lines r n outer ((entryTokens xs).reverse ++ ts) res) :
    Lines (writeEntries n xs ++ r) n outer ts res := by
  induction xs generalizing ts with
  | nil => exact h
  | cons x xs ih =>
    simp only [writeEntries, List.append_assoc, List.cons_append]
    refine Lines.dash (gapAhead_writeEntry n x _) fun i l => ?_
    refine hxs x List.mem_cons_self n i l _ _ _ _ (below_writeEntries hr xs)
      (ih (fun y hy => hxs y (List.mem_cons_of_mem x hy)) ?_)
    simpa [entryTokens] using h

/-- The next line of the document, read from its start. -/
theorem Lines.newline (h : Lines r indent outer ts res) (allowed : Bool) :
    (laid ⟨'\n' :: r, i, l, k⟩ indent outer allowed none ts).Yields res :=
  Yields.newline allowed none (h (i + 1) (l + 1) 0 r rfl)

theorem foundBehindKey_list {xs : List Document} (hxs : ∀ x ∈ xs, FoundBehindDash x) :
    FoundBehindKey (.list xs) := by
  intro n i l k outer ts res r hk hr h
  cases xs with
  | nil => exact yields_brackets (Nat.le_of_lt hk) false (by simpa [tokensOf] using h)
  | cons x xs =>
    refine Lines.newline (lines_entries hr hxs ?_) false
    simpa [tokensOf] using h

theorem foundBehindKey_record {ms : List (String × Document)} (hne : ms ≠ [])
    (hms : ∀ m ∈ ms, PlainKey m.1 ∧ FoundBehindKey m.2) : FoundBehindKey (.record ms) := by
  intro n i l k outer ts res r hk hr h
  have hlines := lines_record (Nat.lt_add_of_pos_right (Nat.succ_pos 1) : n < n + 2) (by omega)
    hr hne hms h
  obtain ⟨m, ms, rfl⟩ := List.exists_cons_of_ne_nil hne
  have hcode : writeValue n (.record (m :: ms)) ++ r =
      '\n' :: (writeMembers (n + 2) (m :: ms) ++ r) := by
    simp [writeValue, writeMembers]
  rw [hcode]
  exact hlines.newline false

theorem foundBehindDash_record {ms : List (String × Document)} (hne : ms ≠ [])
    (hms : ∀ m ∈ ms, PlainKey m.1 ∧ FoundBehindKey m.2) : FoundBehindDash (.record ms) := by
  intro n i l outer ts res r hr h
  have hlines := lines_record (Nat.lt_add_of_pos_right (Nat.succ_pos 1) : n < n + 2) (by omega)
    hr hne hms h
  obtain ⟨m, ms, rfl⟩ := List.exists_cons_of_ne_nil hne
  refine hlines i l (n + 1) _ ?_
  simp only [writeMembers, writeEntry, blanks_add n 1, blanks_add n 2, List.append_assoc]
  rfl

theorem yields_word (hk : n ≤ k) {word : String} (hfits : fitsPlain word.toList = true)
    (hne : word.toList ≠ []) (allowed : Bool) (hr : Below n r)
    (h : Lines r n outer (.scalar .plain word :: ts) res) :
    (laid ⟨' ' :: (word.toList ++ '\n' :: r), i, l, k⟩ n outer allowed none ts).Yields res := by
  refine yields_plain hk hfits hne allowed hr ?_
  rwa [String.ofList_toList]

theorem yields_flag (hk : n ≤ k) (b : Bool) (allowed : Bool) (hr : Below n r)
    (h : Lines r n outer ((tokensOf (.flag b)).reverse ++ ts) res) :
    (laid ⟨writeValue n (.flag b) ++ r, i, l, k⟩ n outer allowed none ts).Yields res := by
  cases b <;> exact yields_word hk (by decide) (by decide) allowed hr h

theorem yields_number (hk : n ≤ k) (x : Int) (allowed : Bool) (hr : Below n r)
    (h : Lines r n outer ((tokensOf (.number x)).reverse ++ ts) res) :
    (laid ⟨writeValue n (.number x) ++ r, i, l, k⟩ n outer allowed none ts).Yields res := by
  simp only [writeValue, List.append_assoc, List.cons_append]
  exact yields_word hk (fitsPlain_toString x) (Number.toList_toString_ne_nil x) allowed hr h

end Lexer

def isList : Document → Bool
  | .list _ => true
  | _ => false

/-- The document has the shape of a descriptor's: no record is empty, keys need no quotes, and no
list is the entry of a list. Its lists and records fit the room that is left for them. -/
inductive Regular : Nat → Document → Prop
  | text (room : Nat) (s : String) : Regular room (.text s)
  | flag (room : Nat) (b : Bool) : Regular room (.flag b)
  | number (room : Nat) (n : Int) : Regular room (.number n)
  | list {room : Nat} {xs : List Document} (flat : ∀ x ∈ xs, isList x = false)
      (entries : ∀ x ∈ xs, Regular room x) : Regular (room + 1) (.list xs)
  | record {room : Nat} {ms : List (String × Document)} (ne_nil : ms ≠ [])
      (keys : ∀ m ∈ ms, PlainKey m.1) (values : ∀ m ∈ ms, Regular room m.2) :
      Regular (room + 1) (.record ms)

namespace Lexer

/-- What takes a single line, or is a text, is written behind a dash as behind a key. -/
theorem found_of_leaf {x : Document} (hsame : ∀ n, writeEntry n x = writeValue n x)
    (h : ∀ (n i l k : Nat) (outer : List Int) (ts res : List Token) (r : List Char)
      (allowed : Bool), n ≤ k → Below n r → Lines r n outer ((tokensOf x).reverse ++ ts) res →
        (laid ⟨writeValue n x ++ r, i, l, k⟩ n outer allowed none ts).Yields res) :
    FoundBehindKey x ∧ (isList x = false → FoundBehindDash x) := by
  refine ⟨fun n i l k outer ts res r hk hr hlines => ?_, fun _ n i l outer ts res r hr hlines => ?_⟩
  · exact h n i l k outer ts res r false (Nat.le_of_lt hk) hr hlines
  · rw [hsame]
    exact h n i l (n + 1) outer ts res r true (Nat.le_succ n) hr hlines

/-- Values and entries are found at once: a value through its entries, an entry through its
members. -/
theorem found_of_regular {room : Nat} {x : Document} (hx : Regular room x) :
    FoundBehindKey x ∧ (isList x = false → FoundBehindDash x) := by
  induction hx with
  | text room s =>
    refine found_of_leaf (fun n => by rw [writeEntry, writeValue])
      fun n i l k outer ts res r allowed hk hr h => ?_
    rw [tokensOf] at h
    rw [writeValue]
    exact yields_text hk s allowed hr h
  | flag room b =>
    exact found_of_leaf (fun n => by rw [writeEntry, writeValue])
      fun n i l k outer ts res r allowed hk hr h => yields_flag hk b allowed hr h
  | number room x =>
    exact found_of_leaf (fun n => by rw [writeEntry, writeValue])
      fun n i l k outer ts res r allowed hk hr h => yields_number hk x allowed hr h
  | list flat _ ih =>
    exact ⟨foundBehindKey_list fun x hx => (ih x hx).2 (flat x hx),
      fun h => absurd h (by simp [isList])⟩
  | @record room ms hne keys _ ih =>
    have hms : ∀ m ∈ ms, PlainKey m.1 ∧ FoundBehindKey m.2 := fun m hm => ⟨keys m hm, (ih m hm).1⟩
    exact ⟨foundBehindKey_record hne hms, fun _ => foundBehindDash_record hne hms⟩

end Lexer

/-- A record at the left edge is the whole text. -/
theorem Lexer.run_write {room : Nat} {ms : List (String × Document)}
    (h : Regular room (.record ms)) (fuel : Nat) (hfuel : (write (.record ms)).length < fuel) :
    run fuel { cursor := { rest := write (.record ms) } } = some (tokensOf (.record ms)) := by
  cases h with
  | record hne keys values =>
    have hms : ∀ m ∈ ms, PlainKey m.1 ∧ FoundBehindKey m.2 := fun m hm =>
      ⟨keys m hm, (found_of_regular (values m hm)).1⟩
    have hend : Below 0 ([] : List Char) := ⟨0, [], rfl, Nat.le_refl 0, fun c hc => by cases hc⟩
    have hlines : Lines (writeMembers 0 ms ++ []) (-1) [] [] _ :=
      lines_open (by decide : (-1 : Int) < ((0 : Nat) : Int)) hend hne hms lines_end
    obtain ⟨m, ms, rfl⟩ := List.exists_cons_of_ne_nil hne
    rw [List.append_nil] at hlines
    have hrun := hlines 0 0 0 _ rfl fuel hfuel
    have htokens : ((memberTokens (m :: ms)).reverse ++ [Token.blockRecordStart]).reverse ++
        [.blockEnd] = tokensOf (.record (m :: ms)) := by simp [tokensOf]
    rw [htokens] at hrun
    exact hrun

end Scaffold.Yaml
