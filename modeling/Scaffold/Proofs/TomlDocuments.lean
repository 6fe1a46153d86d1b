import Scaffold.Proofs.TomlStrings
import Scaffold.Toml.Section

/-!
Documents of TOML, read line by line: a line is empty or a comment, has a key with its value, or is
a heading, under which the entries of the next lines belong. Of the format's values the strings and
the arrays of strings are read, and dotted keys in headings only. The sections that were written are
read back in their order.
-/

namespace Scaffold.Toml

def isBlank (c : Char) : Bool := c == ' ' || c == '\t'

def skipBlanks (cs : List Char) : List Char := cs.dropWhile isBlank

theorem length_skipBlanks_le (cs : List Char) : (skipBlanks cs).length ≤ cs.length :=
  (List.dropWhile_sublist _).length_le

/-- What follows the end of a line, which may have a comment. -/
def lineEnd? (cs : List Char) : Option (List Char) :=
  let cs := skipBlanks cs
  match if cs.head? = some '#' then cs.dropWhile isPlain else cs with
  | [] => some []
  | '\n' :: r => some r
  | '\r' :: '\n' :: r => some r
  | _ => none

/-- One item or more with a mark between each two of them. -/
def separated? {α : Type} (item : List Char → Option (α × List Char)) (mark : Char)
    (cs : List Char) : Option (List α × List Char) :=
  match item cs with
  | none => none
  | some (a, r) =>
    match skipBlanks r with
    | [] => some ([a], [])
    | c :: r' =>
      -- every item of the format takes something; an `item` that does not is asked once
      if c = mark ∧ r'.length < cs.length then
        (separated? item mark (skipBlanks r')).map fun p => (a :: p.1, p.2)
      else some ([a], c :: r')
termination_by cs.length
decreasing_by exact Nat.lt_of_le_of_lt (length_skipBlanks_le _) (And.right ‹_›)

def path? (cs : List Char) : Option (List String × List Char) := separated? key? '.' cs

/-- The strings of an array, behind its bracket. -/
def texts? (cs : List Char) : Option (List String × List Char) :=
  match skipBlanks cs with
  | ']' :: r => some ([], r)
  | r =>
    match separated? string? ',' r with
    | some (items, ']' :: r) => some (items, r)
    | _ => none

def value? : List Char → Option (Value × List Char)
  | '[' :: r => (texts? r).map fun p => (.texts p.1, p.2)
  | cs => (string? cs).map fun p => (.text p.1, p.2)

/-- What a line tells. -/
inductive Statement where
  | heading (h : Heading)
  | entry (key : String) (v : Value)

def heading? : List Char → Option (Heading × List Char)
  | '[' :: '[' :: r =>
    match path? (skipBlanks r) with
    | some (path, ']' :: ']' :: r) => some (.element path, r)
    | _ => none
  | '[' :: r =>
    match path? (skipBlanks r) with
    | some (path, ']' :: r) => some (.table path, r)
    | _ => none
  | _ => none

/-- A key with its value. -/
def keyValue? (cs : List Char) : Option ((String × Value) × List Char) :=
  match key? cs with
  | none => none
  | some (key, r) =>
    match skipBlanks r with
    | '=' :: r => (value? (skipBlanks r)).map fun p => ((key, p.1), p.2)
    | _ => none

def statement? (cs : List Char) : Option (Statement × List Char) :=
  if cs.head? = some '[' then (heading? cs).map fun p => (.heading p.1, p.2)
  else (keyValue? cs).map fun p => (.entry p.1.1 p.1.2, p.2)

/-- The statement of a line, if it has one, and the lines behind it. -/
def line? (cs : List Char) : Option (List Statement × List Char) :=
  match lineEnd? cs with
  | some r => some ([], r)
  | none =>
    match statement? (skipBlanks cs) with
    | none => none
    | some (s, r) => (lineEnd? r).map fun r => ([s], r)

def statements? (cs : List Char) : Option (List Statement) :=
  if cs = [] then some []
  else
    match line? cs with
    | none => none
    | some (told, r) =>
      -- so does every line
      if r.length < cs.length then (statements? r).map (told ++ ·) else none
termination_by cs.length

/-- The entries in front of the first heading, and the sections. -/
def grouped : List Statement → List (String × Value) × List Section
  | [] => ([], [])
  | .entry key v :: rest => ((key, v) :: (grouped rest).1, (grouped rest).2)
  | .heading h :: rest => ([], ⟨h, (grouped rest).1⟩ :: (grouped rest).2)

/-- A document as its sections; the first one has the entries of the root. -/
def document? (text : String) : Option (List Section) :=
  (statements? text.toList).map fun told => ⟨.root, (grouped told).1⟩ :: (grouped told).2

theorem skipBlanks_cons {c : Char} (h : isBlank c = false) (r : List Char) :
    skipBlanks (c :: r) = c :: r := by
  simp [skipBlanks, h]

theorem skipBlanks_append {gap : List Char} (h : ∀ c ∈ gap, isBlank c = true) (r : List Char) :
    skipBlanks (gap ++ r) = skipBlanks r :=
  List.dropWhile_append_of_pos h

theorem lineEnd?_comment {cs : List Char} (h : ∀ c ∈ cs, isPlain c = true) (r : List Char) :
    lineEnd? ('#' :: cs ++ '\n' :: r) = some r := by
  have hline : ('#' :: cs ++ '\n' :: r).dropWhile isPlain = '\n' :: r := by
    rw [List.dropWhile_append_of_pos (List.forall_mem_cons.mpr ⟨rfl, h⟩)]
    rfl
  rw [lineEnd?, List.cons_append, skipBlanks_cons (by decide)]
  simp only [List.head?_cons, if_true]
  rw [← List.cons_append, hline]
  rfl

/-- A character that a key may start with. -/
def OpensKey (c : Char) : Prop := isBareChar c = true ∨ c = '"' ∨ c = '\''

/-- A character that a statement may start with. -/
def Opens (c : Char) : Prop := OpensKey c ∨ c = '['

theorem OpensKey.ne {c d : Char} (h : OpensKey c)
    (hd : (isBareChar d || d == '"' || d == '\'') = false) : c ≠ d := by
  rintro rfl
  simp only [Bool.or_eq_false_iff, beq_eq_false_iff_ne] at hd
  obtain ⟨⟨hbare, hbasic⟩, hliteral⟩ := hd
  rcases h with h | h | h
  · exact absurd h (by simp [hbare])
  · exact hbasic h
  · exact hliteral h

theorem Opens.ne {c d : Char} (h : Opens c)
    (hd : (isBareChar d || d == '"' || d == '\'') = false) (hbracket : d ≠ '[') : c ≠ d := by
  rcases h with h | rfl
  · exact h.ne hd
  · exact hbracket.symm

theorem Opens.skipBlanks_eq {c : Char} (h : Opens c) (r : List Char) :
    skipBlanks (c :: r) = c :: r := by
  refine skipBlanks_cons ?_ r
  simp [isBlank, h.ne (d := ' ') (by decide) (by decide),
    h.ne (d := '\t') (by decide) (by decide)]

theorem lineEnd?_eq_none {c : Char} (h : Opens c) (r : List Char) :
    lineEnd? (c :: r) = none := by
  simp [lineEnd?, h.skipBlanks_eq, h.ne (d := '#') (by decide) (by decide),
    h.ne (d := '\n') (by decide) (by decide), h.ne (d := '\r') (by decide) (by decide)]

section Separated

variable {α : Type} {item : List Char → Option (α × List Char)} {shown : α → List Char}
  {mark : Char} {gap : List Char}

theorem exists_intercalate_cons_eq (sep x : List α) (xs : List (List α)) :
    ∃ tail, sep.intercalate (x :: xs) = x ++ tail := by
  cases xs with
  | nil => exact ⟨[], by simp⟩
  | cons y ys => exact ⟨_, by rw [List.intercalate_cons_cons, List.append_assoc]⟩

/-- Items that are shown without a blank in front and read back where they end. -/
structure ReadsShown (item : List Char → Option (α × List Char)) (shown : α → List Char)
    (Ends : List Char → Prop) : Prop where
  read : ∀ a {rest}, Ends rest → item (shown a ++ rest) = some (a, rest)
  opens : ∀ a rest, skipBlanks (shown a ++ rest) = shown a ++ rest

/-- Items with a mark and a gap between each two are read back. -/
theorem separated?_read {Ends : List Char → Prop} (h : ReadsShown item shown Ends)
    (hgap : ∀ c ∈ gap, isBlank c = true) (hmark : isBlank mark = false)
    (hmore : ∀ r, Ends (mark :: r)) {c : Char} {r : List Char} (hend : Ends (c :: r))
    (hblank : isBlank c = false) (hc : c ≠ mark) (a : α) (as : List α) :
    separated? item mark ((mark :: gap).intercalate ((a :: as).map shown) ++ c :: r) =
      some (a :: as, c :: r) := by
  induction as generalizing a with
  | nil =>
    rw [List.map_singleton, List.intercalate_singleton, separated?, h.read a hend]
    simp only [skipBlanks_cons hblank, hc, false_and, if_false]
  | cons b bs ih =>
    let rest := (mark :: gap).intercalate ((b :: bs).map shown) ++ c :: r
    have hskip : skipBlanks (gap ++ rest) = rest := by
      obtain ⟨tail, htail⟩ := exists_intercalate_cons_eq (mark :: gap) (shown b) (bs.map shown)
      have hfront : rest = shown b ++ (tail ++ c :: r) := by
        rw [← List.append_assoc, ← htail]
        rfl
      rw [skipBlanks_append hgap, hfront, h.opens]
    have htext : (mark :: gap).intercalate ((a :: b :: bs).map shown) ++ c :: r =
        shown a ++ mark :: (gap ++ rest) := by
      rw [List.map_cons, List.map_cons, List.intercalate_cons_cons, ← List.map_cons]
      simp only [rest, List.append_assoc, List.cons_append]
    have hless : (gap ++ rest).length < (shown a ++ mark :: (gap ++ rest)).length := by
      simp only [List.length_append, List.length_cons]
      omega
    rw [htext, separated?, h.read a (hmore _)]
    simp only [skipBlanks_cons hmark, hless, and_self, if_true, hskip]
    rw [ih b]
    rfl

end Separated

theorem exists_quotedAs_eq_cons (q : Quoting) (cs : List Char) :
    ∃ c r, (quotedAs q cs).toList = c :: r ∧ OpensKey c := by
  have hbasic : OpensKey '"' := .inr (.inl rfl)
  have hliteral : OpensKey '\'' := .inr (.inr rfl)
  cases q with
  | basic => exact ⟨_, _, toList_quotedAs_basic cs, hbasic⟩
  | literal => exact ⟨_, _, toList_quotedAs_literal cs, hliteral⟩
  | longBasic => exact ⟨_, _, toList_quotedAs_longBasic cs, hbasic⟩
  | longLiteral => exact ⟨_, _, toList_quotedAs_longLiteral cs, hliteral⟩

theorem exists_quoted_eq_cons (s : String) : ∃ c r, (quoted s).toList = c :: r ∧ OpensKey c :=
  exists_quotedAs_eq_cons _ _

theorem exists_key_eq_cons (s : String) : ∃ c r, (key s).toList = c :: r ∧ OpensKey c := by
  simp only [key]
  split_ifs with hbare
  · cases hs : s.toList with
    | nil => simp [hs] at hbare
    | cons c cs =>
      have hc : isBareChar c = true := by
        rw [hs] at hbare
        simp only [List.all_cons, Bool.and_eq_true] at hbare
        exact hbare.2.1
      exact ⟨c, cs, rfl, .inl hc⟩
  all_goals exact exists_quotedAs_eq_cons _ _

/-- No word goes on at the head of the text. -/
def EndsWord (r : List Char) : Prop := ∀ c ∈ r.head?, isBareChar c = false

/-- No quote stands at the head of the text. -/
def EndsQuoted (r : List Char) : Prop := r.head? ≠ some '"' ∧ r.head? ≠ some '\''

theorem endsWord_cons {c : Char} (h : isBareChar c = false) (r : List Char) :
    EndsWord (c :: r) := by
  rintro d hd
  exact Option.some.inj hd ▸ h

theorem endsQuoted_cons {c : Char} (hbasic : c ≠ '"') (hliteral : c ≠ '\'') (r : List Char) :
    EndsQuoted (c :: r) :=
  ⟨fun h => hbasic (Option.some.inj h), fun h => hliteral (Option.some.inj h)⟩

theorem readsShown_key : ReadsShown key? (fun s => (key s).toList) EndsWord where
  read s _ h := key?_key s h
  opens s rest := by
    obtain ⟨c, r, h, hc⟩ := exists_key_eq_cons s
    rw [h, List.cons_append, Opens.skipBlanks_eq (.inl hc)]

theorem readsShown_quoted : ReadsShown string? (fun s => (quoted s).toList) EndsQuoted where
  read s _ h := string?_quoted s h.1 h.2
  opens s rest := by
    obtain ⟨c, r, h, hc⟩ := exists_quoted_eq_cons s
    rw [h, List.cons_append, Opens.skipBlanks_eq (.inl hc)]

theorem toList_keyPath (path : List String) :
    (keyPath path).toList = ['.'].intercalate (path.map fun s => (key s).toList) := by
  simp [keyPath, String.toList_intercalate, Function.comp_def]

theorem exists_keyPath_eq_cons {path : List String} (hne : path ≠ []) :
    ∃ c r, (keyPath path).toList = c :: r ∧ OpensKey c := by
  obtain ⟨k, ks, rfl⟩ := List.exists_cons_of_ne_nil hne
  obtain ⟨c, r, hk, hc⟩ := exists_key_eq_cons k
  obtain ⟨tail, htail⟩ := exists_intercalate_cons_eq ['.'] (key k).toList
    (ks.map fun s => (key s).toList)
  exact ⟨c, r ++ tail, by rw [toList_keyPath, List.map_cons, htail, hk, List.cons_append], hc⟩

/-- A dotted path is read back up to its bracket. -/
theorem path?_keyPath {path : List String} (hne : path ≠ []) (rest : List Char) :
    path? (skipBlanks ((keyPath path).toList ++ ']' :: rest)) = some (path, ']' :: rest) := by
  obtain ⟨c, r, hpath, hc⟩ := exists_keyPath_eq_cons hne
  have hskip : skipBlanks ((keyPath path).toList ++ ']' :: rest) =
      (keyPath path).toList ++ ']' :: rest := by
    rw [hpath, List.cons_append, Opens.skipBlanks_eq (.inl hc)]
  obtain ⟨k, ks, rfl⟩ := List.exists_cons_of_ne_nil hne
  rw [hskip, toList_keyPath]
  exact separated?_read readsShown_key (fun c hc => absurd hc List.not_mem_nil) (by decide)
    (endsWord_cons (by decide)) (endsWord_cons (by decide) rest) (by decide) (by decide) k ks

theorem texts?_render (items : List String) (rest : List Char) :
    texts? ((String.intercalate ", " (items.map quoted)).toList ++ ']' :: rest) =
      some (items, rest) := by
  cases items with
  | nil => rfl
  | cons s ss =>
    have htext : (String.intercalate ", " ((s :: ss).map quoted)).toList =
        [',', ' '].intercalate ((s :: ss).map fun s => (quoted s).toList) := by
      simp [String.toList_intercalate, Function.comp_def]
    have hread : separated? string? ','
        ((String.intercalate ", " ((s :: ss).map quoted)).toList ++ ']' :: rest) =
          some (s :: ss, ']' :: rest) := by
      rw [htext]
      exact separated?_read readsShown_quoted (List.all_eq_true.mp (by decide)) (by decide)
        (endsQuoted_cons (by decide) (by decide)) (endsQuoted_cons (by decide) (by decide) rest)
        (by decide) (by decide) s ss
    obtain ⟨c, r, hs, hc⟩ := exists_quoted_eq_cons s
    obtain ⟨tail, htail⟩ := exists_intercalate_cons_eq [',', ' '] (quoted s).toList
      (ss.map fun s => (quoted s).toList)
    have hfront : (String.intercalate ", " ((s :: ss).map quoted)).toList ++ ']' :: rest =
        c :: (r ++ tail ++ ']' :: rest) := by
      rw [htext, List.map_cons, htail, hs]
      rfl
    rw [hfront] at hread ⊢
    rw [texts?, Opens.skipBlanks_eq (.inl hc)]
    split
    · next heq => exact absurd (List.cons.inj heq).1 (hc.ne (by decide))
    · rw [hread]
      rfl

theorem value?_render (v : Value) {rest : List Char} (h : EndsQuoted rest) :
    value? (v.render.toList ++ rest) = some (v, rest) := by
  cases v with
  | text s =>
    obtain ⟨c, r, hs, hc⟩ := exists_quoted_eq_cons s
    have hread := readsShown_quoted.read s h
    simp only [Value.render]
    rw [hs] at hread ⊢
    unfold value?
    split
    · next heq => exact absurd (List.cons.inj heq).1 (hc.ne (by decide))
    · rw [hread]
      rfl
  | texts items =>
    have htext : (Value.texts items).render.toList ++ rest =
        '[' :: ((String.intercalate ", " (items.map quoted)).toList ++ ']' :: rest) := by
      simp [Value.render]
    rw [htext, value?, texts?_render]
    rfl

/-- A heading that has a name. -/
def Heading.Named : Heading → Prop
  | root => False
  | table path => path ≠ []
  | element path => path ≠ []

theorem heading?_render {h : Heading} (hnamed : h.Named) (rest : List Char) :
    heading? (h.render.toList ++ rest) = some (h, '\n' :: rest) := by
  cases h with
  | root => exact hnamed.elim
  | table path =>
    have hpath := path?_keyPath hnamed ('\n' :: rest)
    obtain ⟨c, r, hfirst, hc⟩ := exists_keyPath_eq_cons hnamed
    have htext : (Heading.table path).render.toList ++ rest =
        '[' :: ((keyPath path).toList ++ ']' :: '\n' :: rest) := by
      simp [Heading.render]
    rw [htext]
    unfold heading?
    split
    · next heq =>
      rw [hfirst] at heq
      exact absurd (List.cons.inj (List.cons.inj heq).2).1 (hc.ne (by decide))
    · next heq =>
      rw [← (List.cons.inj heq).2, hpath]
      rfl
    · next _ hother => exact absurd rfl (hother _)
  | element path =>
    have hpath := path?_keyPath hnamed (']' :: '\n' :: rest)
    have htext : (Heading.element path).render.toList ++ rest =
        '[' :: '[' :: ((keyPath path).toList ++ ']' :: ']' :: '\n' :: rest) := by
      simp [Heading.render]
    rw [htext, heading?, hpath]
    rfl

theorem skipBlanks_render (v : Value) (rest : List Char) :
    skipBlanks (v.render.toList ++ rest) = v.render.toList ++ rest := by
  cases v with
  | text s => exact readsShown_quoted.opens s rest
  | texts items =>
    have htext : (Value.texts items).render.toList =
        '[' :: ((String.intercalate ", " (items.map quoted)).toList ++ [']']) := by
      simp [Value.render]
    rw [htext, List.cons_append, skipBlanks_cons (by decide)]

theorem keyValue?_entryLine (entry : String × Value) (rest : List Char) :
    keyValue? ((entryLine entry).toList ++ rest) = some (entry, '\n' :: rest) := by
  have htext : (entryLine entry).toList ++ rest =
      (key entry.1).toList ++ ' ' :: '=' :: ' ' :: (entry.2.render.toList ++ '\n' :: rest) := by
    simp [entryLine]
  have hequals : ∀ r, skipBlanks (' ' :: '=' :: r) = '=' :: r := fun _ => rfl
  have hvalue : value? (skipBlanks (' ' :: (entry.2.render.toList ++ '\n' :: rest))) =
      some (entry.2, '\n' :: rest) := by
    have hblank : ∀ r, skipBlanks (' ' :: r) = skipBlanks r := fun _ => rfl
    rw [hblank, skipBlanks_render]
    exact value?_render entry.2 (endsQuoted_cons (by decide) (by decide) rest)
  rw [htext, keyValue?, key?_key entry.1 (endsWord_cons (c := ' ') (by decide) _)]
  simp only [hequals, hvalue]
  rfl

/-- The lines of a text tell some statements, whatever lines follow. -/
def Tells (text : List Char) (told : List Statement) : Prop :=
  ∀ rest, statements? (text ++ rest) = (statements? rest).map (told ++ ·)

theorem tells_nil : Tells [] [] := by
  intro rest
  cases h : statements? rest <;> simp [h]

theorem Tells.append {x y : List Char} {told more : List Statement} (hx : Tells x told)
    (hy : Tells y more) : Tells (x ++ y) (told ++ more) := by
  intro rest
  rw [List.append_assoc, hx, hy, Option.map_map]
  simp [Function.comp_def]

theorem Tells.statements?_eq {x : List Char} {told : List Statement} (h : Tells x told) :
    statements? x = some told := by
  have hend : statements? [] = some [] := by rw [statements?, if_pos rfl]
  simpa [hend] using h []

theorem tells_of_line? {x : List Char} {told : List Statement} (hne : x ≠ [])
    (hline : ∀ rest, line? (x ++ rest) = some (told, rest)) : Tells x told := by
  intro rest
  have hless : rest.length < (x ++ rest).length := by
    have := List.length_pos_iff.mpr hne
    simp only [List.length_append]
    omega
  rw [statements?, if_neg (by simp [hne]), hline]
  exact if_pos hless

theorem tells_newline : Tells ['\n'] [] :=
  tells_of_line? (by decide) fun _ => rfl

theorem tells_comment {cs : List Char} (h : ∀ c ∈ cs, isPlain c = true) :
    Tells ('#' :: cs ++ ['\n']) [] := by
  refine tells_of_line? (by simp) fun rest => ?_
  rw [line?, List.append_assoc, List.singleton_append, lineEnd?_comment h]

theorem line?_of_statement? {c : Char} {r rest : List Char} {s : Statement} (hopens : Opens c)
    (hread : statement? (c :: r) = some (s, '\n' :: rest)) :
    line? (c :: r) = some ([s], rest) := by
  rw [line?, lineEnd?_eq_none hopens, hopens.skipBlanks_eq, hread]
  rfl

theorem tells_heading {h : Heading} (hnamed : h.Named) :
    Tells h.render.toList [.heading h] := by
  obtain ⟨r, hr⟩ : ∃ r, h.render.toList = '[' :: r := by
    cases h with
    | root => exact hnamed.elim
    | table path => exact ⟨_, by simp [Heading.render]; rfl⟩
    | element path => exact ⟨_, by simp [Heading.render]; rfl⟩
  refine tells_of_line? (by simp [hr]) fun rest => ?_
  have hread := heading?_render hnamed rest
  rw [hr, List.cons_append] at hread ⊢
  refine line?_of_statement? (.inr rfl) ?_
  rw [statement?, List.head?_cons, if_pos rfl, hread]
  rfl

theorem tells_entryLine (entry : String × Value) :
    Tells (entryLine entry).toList [.entry entry.1 entry.2] := by
  obtain ⟨c, r, hkey, hc⟩ := exists_key_eq_cons entry.1
  have hfirst : ∃ r', (entryLine entry).toList = c :: r' :=
    ⟨_, by simp [entryLine, hkey]; rfl⟩
  obtain ⟨r', hr'⟩ := hfirst
  have hbracket : c ≠ '[' := hc.ne (by decide)
  refine tells_of_line? (by simp [hr']) fun rest => ?_
  have hread := keyValue?_entryLine entry rest
  rw [hr', List.cons_append] at hread ⊢
  refine line?_of_statement? (.inl hc) ?_
  rw [statement?, if_neg (by simpa using hbracket), hread]
  rfl

/-- What the lines of a section tell. -/
def Section.statements (s : Section) : List Statement :=
  (match s.heading with
    | .root => []
    | h => [.heading h]) ++ s.entries.map fun entry => .entry entry.1 entry.2

theorem tells_entries (entries : List (String × Value)) :
    Tells (String.join (entries.map entryLine)).toList
      (entries.map fun entry => .entry entry.1 entry.2) := by
  induction entries with
  | nil => exact tells_nil
  | cons entry entries ih =>
    rw [List.map_cons, String.join_cons, String.toList_append]
    exact (tells_entryLine entry).append ih

theorem tells_section {s : Section} (h : s.heading = .root ∨ s.heading.Named) :
    Tells s.render.toList s.statements := by
  obtain ⟨heading, entries⟩ := s
  rw [Section.render, String.toList_append]
  refine Tells.append ?_ (tells_entries entries)
  cases heading with
  | root => exact tells_nil
  | table path => exact tells_heading (h.resolve_left nofun)
  | element path => exact tells_heading (h.resolve_left nofun)

/-- A written document tells what its sections do, in their order. -/
theorem tells_render {sections : List Section}
    (h : ∀ s ∈ sections, s.heading = .root ∨ s.heading.Named) :
    Tells (render sections).toList (sections.flatMap Section.statements) := by
  induction sections with
  | nil => exact tells_nil
  | cons s ss ih =>
    obtain ⟨hs, hss⟩ := List.forall_mem_cons.mp h
    cases ss with
    | nil => simpa [render] using tells_section hs
    | cons t ts =>
      have htext : (render (s :: t :: ts)).toList =
          s.render.toList ++ (['\n'] ++ (render (t :: ts)).toList) := by
        simp [render, String.intercalate_cons_cons]
      rw [htext, List.flatMap_cons]
      exact (tells_section hs).append (tells_newline.append (ih hss))

theorem grouped_entries_append (entries : List (String × Value)) (told : List Statement) :
    grouped (entries.map (fun entry => .entry entry.1 entry.2) ++ told) =
      (entries ++ (grouped told).1, (grouped told).2) := by
  induction entries with
  | nil => rfl
  | cons entry entries ih => simp [grouped, ih]

theorem grouped_sections {sections : List Section} (h : ∀ s ∈ sections, s.heading.Named) :
    grouped (sections.flatMap Section.statements) = ([], sections) := by
  induction sections with
  | nil => rfl
  | cons s ss ih =>
    obtain ⟨hs, hss⟩ := List.forall_mem_cons.mp h
    obtain ⟨heading, entries⟩ := s
    have hfirst : Section.statements ⟨heading, entries⟩ =
        .heading heading :: entries.map fun entry => .entry entry.1 entry.2 := by
      cases heading with
      | root => exact hs.elim
      | table path => rfl
      | element path => rfl
    rw [List.flatMap_cons, hfirst, List.cons_append, grouped, grouped_entries_append, ih hss,
      List.append_nil]

/-- The sections of a document are read back, with the entries of the root in front. -/
theorem document?_eq {text : String} {entries : List (String × Value)} {sections : List Section}
    (h : Tells text.toList
      (Section.statements ⟨.root, entries⟩ ++ sections.flatMap Section.statements))
    (hnamed : ∀ s ∈ sections, s.heading.Named) :
    document? text = some (⟨.root, entries⟩ :: sections) := by
  have hgrouped : grouped (Section.statements ⟨.root, entries⟩ ++
      sections.flatMap Section.statements) = (entries, sections) := by
    rw [Section.statements, List.nil_append, grouped_entries_append, grouped_sections hnamed,
      List.append_nil]
  rw [document?, h.statements?_eq, Option.map_some, hgrouped]

/-- Blanks, comments and either line end stand where the format has them. -/
example :
    document? "# c\n[ a . 'b' ] # d\r\nc = [ 'd' , \"e\" ]" =
      some [⟨.root, []⟩, ⟨.table ["a", "b"], [("c", .texts ["d", "e"])]⟩] := by cbv

end Scaffold.Toml
