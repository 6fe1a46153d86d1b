import Mathlib.Data.List.Chain
import Scaffold.Proofs.Identifiers
import Scaffold.Proofs.Rules

/-!
What the underscored spelling of a name keeps. It cuts a text into words, spells the capitals of
each word small and puts an underscore between the words. Words never meet at an underscore, so
underscores are the only thing that is added. In ASCII nothing is left to cut or to spell small, and
a name that was generated generates itself.
-/

namespace Scaffold.Naming

open Text

theorem toNat_ofNat (n : ℕ) : (Char.ofNat n).toNat = n ∨ (Char.ofNat n).toNat = 0 := by
  by_cases h : n.isValidChar
  · left
    rw [Char.ofNat, dif_pos h]
    rfl
  · right
    rw [Char.ofNat, dif_neg h]
    rfl

theorem ofNat_ne_underscore {n : ℕ} (h : n ≠ '_'.toNat) : Char.ofNat n ≠ '_' := by
  intro heq
  rcases toNat_ofNat n with hn | hn
  · exact h (by rw [← hn, heq])
  · rw [heq] at hn
    exact absurd hn (by decide)

/-- The tables give each letter at least one character, and never an underscore. -/
theorem mapped_to_small {c : Char} (hc : c ≠ '_') :
    '_' ∉ mapped CaseTable.toLowerWords CaseTable.toLowerRuns c ∧
      mapped CaseTable.toLowerWords CaseTable.toLowerRuns c ≠ [] := by
  have hwords : ∀ entry ∈ CaseTable.toLowerWords,
      entry.2 ≠ [] ∧ ∀ n ∈ entry.2, n ≠ '_'.toNat := by
    decide
  have hruns : ∀ run ∈ CaseTable.toLowerRuns, '_'.toNat < run.2.2.2 := by decide +kernel
  unfold mapped
  split
  · next word hword =>
    obtain ⟨front, back, heq, -⟩ := List.lookup_eq_some_iff.mp hword
    obtain ⟨hne, hplain⟩ := hwords (c.toNat, word) (by simp [heq])
    refine ⟨fun hmem => ?_, by simpa using hne⟩
    obtain ⟨n, hn, heq⟩ := List.mem_map.mp hmem
    exact ofNat_ne_underscore (hplain n hn) heq
  · split
    · next run hrun =>
      have hstart := hruns run (List.mem_of_find?_eq_some hrun)
      have hletter := ofNat_ne_underscore (n := run.2.2.2 + (c.toNat - run.1)) (by omega)
      exact ⟨by simpa using hletter.symm, List.cons_ne_nil _ _⟩
    · exact ⟨by simpa using hc.symm, List.cons_ne_nil _ _⟩

/-- Only an underscore is spelled with one, and nothing is spelled by nothing. -/
theorem spelled_of_ne {c : Char} (hc : c ≠ '_') : '_' ∉ spelled c ∧ spelled c ≠ [] := by
  by_cases hascii : c.toNat < 128
  · exact forall_ascii (fun d => d ≠ '_' → '_' ∉ spelled d ∧ spelled d ≠ []) (by decide +kernel) c
      hascii hc
  · unfold spelled
    split
    · rw [lower, if_neg hascii]
      exact mapped_to_small hc
    · exact ⟨by simpa using hc.symm, List.cons_ne_nil _ _⟩

/-- No ASCII character is spelled with a capital. -/
theorem isUpper_of_mem_spelled {c d : Char} (hc : c.toNat < 128) (hd : d ∈ spelled c) :
    isUpper d = false := by
  have hsmall := forall_ascii (fun c => ((spelled c).all fun d => !isUpper d) = true)
    (by decide +kernel) c hc
  simpa using List.all_eq_true.mp hsmall d hd

theorem filter_spelled (c : Char) :
    (spelled c).filter (· ≠ '_') = ([c].filter (· ≠ '_')).flatMap spelled := by
  by_cases hc : c = '_'
  · subst hc
    decide
  · have hplain : ∀ d ∈ spelled c, d ≠ '_' := fun d hd heq => (spelled_of_ne hc).1 (heq ▸ hd)
    simpa [hc] using hplain

/-- Apart from underscores, each character of a text is spelled once and in its place. -/
theorem filter_snakeFrom (before : Option Char) (cs : List Char) :
    (snakeFrom before cs).filter (· ≠ '_') = (cs.filter (· ≠ '_')).flatMap spelled := by
  induction cs generalizing before with
  | nil => rfl
  | cons c cs ih =>
    have hgap : ((if isUpper c && opensWord before cs.head? then ['_'] else []).filter
        (· ≠ '_')) = [] := by
      split <;> rfl
    rw [snakeFrom_cons, List.filter_append, hgap, List.nil_append, List.filter_append,
      filter_spelled, ih, ← List.flatMap_append, ← List.filter_append, List.singleton_append]

/-- A word opens behind `front` at a capital: behind a small letter or a digit, and behind another
capital if a small letter follows. -/
def WordOpens (front back : List Char) : Prop :=
  ∃ p ∈ front.getLast?, ∃ c ∈ back.head?, isUpper c = true ∧
    (isLower p = true ∨ p.isDigit = true ∨
      (isUpper p = true ∧ ∃ n ∈ back.tail.head?, isLower n = true))

/-- Some words come one after the other to `front`, and all others to `back`. -/
def BreaksAt (words : List (List Char)) (front back : List Char) : Prop :=
  ∃ former latter, former ≠ [] ∧ latter ≠ [] ∧ words = former ++ latter ∧
    former.flatten = front ∧ latter.flatten = back

/-- The words of a text: it breaks between them wherever a word opens, and nowhere else. -/
structure AreWords (cs : List Char) (words : List (List Char)) : Prop where
  flatten_eq : words.flatten = cs
  breaksAt_iff : ∀ front back,
    BreaksAt words front back ↔ front ++ back = cs ∧ WordOpens front back

def spelledWord (word : List Char) : List Char := word.flatMap spelled

/-- An underscore between the two stands between two other characters. -/
def StandApart (word next : List Char) : Prop :=
  (∃ c ∈ word.getLast?, c ≠ '_') ∧ ∃ c ∈ next.head?, c ≠ '_'

def wordsFrom (p : Char) : List Char → List (List Char)
  | [] => [[p]]
  | c :: cs =>
    if isUpper c && opensWord (some p) cs.head? then [p] :: wordsFrom c cs
    else
      match wordsFrom c cs with
      | [] => [[p]]
      | word :: rest => (p :: word) :: rest

/-- The text cut in front of each capital that opens a word. -/
def wordsOf : List Char → List (List Char)
  | [] => []
  | c :: cs => wordsFrom c cs

theorem exists_wordsFrom_eq (p : Char) (cs : List Char) :
    ∃ word rest, wordsFrom p cs = (p :: word) :: rest := by
  cases cs with
  | nil => exact ⟨[], [], rfl⟩
  | cons c cs =>
    unfold wordsFrom
    split
    · exact ⟨[], _, rfl⟩
    · cases wordsFrom c cs with
      | nil => exact ⟨[], [], rfl⟩
      | cons word rest => exact ⟨word, rest, rfl⟩

/-- A character either is a word of its own or joins the word behind it. -/
theorem wordsFrom_cons_cases (p c : Char) (cs : List Char) :
    ∃ word rest, wordsFrom c cs = (c :: word) :: rest ∧
      ((isUpper c = true ∧ opensWord (some p) cs.head? = true ∧
          wordsFrom p (c :: cs) = [p] :: (c :: word) :: rest) ∨
        ((isUpper c && opensWord (some p) cs.head?) = false ∧
          wordsFrom p (c :: cs) = (p :: c :: word) :: rest)) := by
  obtain ⟨word, rest, heq⟩ := exists_wordsFrom_eq c cs
  refine ⟨word, rest, heq, ?_⟩
  cases hopens : isUpper c && opensWord (some p) cs.head? with
  | true =>
    have hboth := Bool.and_eq_true_iff.mp hopens
    exact Or.inl ⟨hboth.1, hboth.2, by rw [wordsFrom, if_pos hopens, heq]⟩
  | false => exact Or.inr ⟨rfl, by rw [wordsFrom, if_neg (by simp [hopens]), heq]⟩

theorem flatten_wordsFrom (p : Char) (cs : List Char) : (wordsFrom p cs).flatten = p :: cs := by
  induction cs generalizing p with
  | nil => rfl
  | cons c cs ih =>
    obtain ⟨word, rest, heq, ⟨-, -, hcut⟩ | ⟨-, hjoined⟩⟩ := wordsFrom_cons_cases p c cs
    · rw [hcut, List.flatten_cons, ← heq, ih]
      rfl
    · have hrest := ih c
      rw [heq, List.flatten_cons, List.cons_append] at hrest
      rw [hjoined, List.flatten_cons, List.cons_append, List.cons_append, hrest]

theorem breaksAt_cons_iff {word : List Char} {words : List (List Char)} {front back : List Char} :
    BreaksAt (word :: words) front back ↔
      ∃ former latter, latter ≠ [] ∧ words = former ++ latter ∧
        front = word ++ former.flatten ∧ back = latter.flatten := by
  constructor
  · rintro ⟨former, latter, hformer, hlatter, heq, rfl, rfl⟩
    obtain ⟨rfl, -⟩ | ⟨former, rfl, rfl⟩ := List.cons_eq_append_iff.mp heq
    · exact absurd rfl hformer
    · exact ⟨former, latter, hlatter, rfl, rfl, rfl⟩
  · rintro ⟨former, latter, hlatter, rfl, rfl, rfl⟩
    exact ⟨word :: former, latter, List.cons_ne_nil _ _, hlatter, rfl, rfl, rfl⟩

/-- A character joined to the first word moves no break. -/
theorem breaksAt_joined_iff {p : Char} {word : List Char} {rest : List (List Char)}
    {front back : List Char} :
    BreaksAt ((p :: word) :: rest) front back ↔
      ∃ others, front = p :: others ∧ BreaksAt (word :: rest) others back := by
  simp only [breaksAt_cons_iff]
  constructor
  · rintro ⟨former, latter, hlatter, heq, rfl, rfl⟩
    exact ⟨_, rfl, former, latter, hlatter, heq, rfl, rfl⟩
  · rintro ⟨others, rfl, former, latter, hlatter, heq, rfl, rfl⟩
    exact ⟨former, latter, hlatter, heq, rfl, rfl⟩

/-- A word in front adds one break, the one behind it. -/
theorem breaksAt_cut_iff {p : Char} {word : List Char} {rest : List (List Char)}
    {front back : List Char} :
    BreaksAt ([p] :: word :: rest) front back ↔
      (front = [p] ∧ back = (word :: rest).flatten) ∨
        ∃ others, front = p :: others ∧ BreaksAt (word :: rest) others back := by
  rw [breaksAt_cons_iff]
  constructor
  · rintro ⟨former, latter, hlatter, heq, rfl, rfl⟩
    cases former with
    | nil => exact Or.inl ⟨rfl, by rw [heq]; rfl⟩
    | cons w former =>
      exact Or.inr ⟨_, rfl, w :: former, latter, List.cons_ne_nil _ _, hlatter, heq, rfl, rfl⟩
  · rintro (⟨rfl, rfl⟩ | ⟨others, rfl, former, latter, -, hlatter, heq, rfl, rfl⟩)
    · exact ⟨[], word :: rest, List.cons_ne_nil _ _, rfl, rfl, rfl⟩
    · exact ⟨former, latter, hlatter, heq, rfl, rfl⟩

theorem WordOpens.ne_nil {front back : List Char} (h : WordOpens front back) :
    front ≠ [] ∧ back ≠ [] := by
  obtain ⟨p, hp, c, hc, -⟩ := h
  exact ⟨List.ne_nil_of_mem (List.mem_of_getLast? hp), List.ne_nil_of_mem (List.mem_of_head? hc)⟩

theorem wordOpens_singleton_iff (p c : Char) (cs : List Char) :
    WordOpens [p] (c :: cs) ↔ isUpper c = true ∧ opensWord (some p) cs.head? = true := by
  cases cs with
  | nil => simp [WordOpens, opensWord]
  | cons n cs => simp [WordOpens, opensWord, or_assoc]

theorem wordOpens_cons_iff {p q : Char} {front back : List Char} :
    WordOpens (p :: q :: front) back ↔ WordOpens (q :: front) back := by
  rw [WordOpens, WordOpens, List.getLast?_cons_cons]

/-- The first place where a word may open lies behind the first character; all others are those of
the text behind it. -/
theorem wordOpens_in_cons_iff {p c : Char} {cs front back : List Char} :
    front ++ back = p :: c :: cs ∧ WordOpens front back ↔
      (front = [p] ∧ back = c :: cs ∧ WordOpens [p] (c :: cs)) ∨
        ∃ others, front = p :: others ∧ others ++ back = c :: cs ∧ WordOpens others back := by
  constructor
  · rintro ⟨heq, hopens⟩
    obtain ⟨rfl, -⟩ | ⟨others, rfl, hothers⟩ := List.append_eq_cons_iff.mp heq
    · exact absurd rfl hopens.ne_nil.1
    · cases others with
      | nil =>
        obtain rfl : c :: cs = back := hothers
        exact Or.inl ⟨rfl, rfl, hopens⟩
      | cons q others =>
        exact Or.inr ⟨_, rfl, hothers.symm, wordOpens_cons_iff.mp hopens⟩
  · rintro (⟨rfl, rfl, hopens⟩ | ⟨others, rfl, heq, hopens⟩)
    · exact ⟨rfl, hopens⟩
    · refine ⟨by rw [List.cons_append, heq], ?_⟩
      cases others with
      | nil => exact absurd rfl hopens.ne_nil.1
      | cons q others => exact wordOpens_cons_iff.mpr hopens

/-- The text breaks between its words exactly where a word opens. -/
theorem breaksAt_wordsFrom_iff (p : Char) (cs front back : List Char) :
    BreaksAt (wordsFrom p cs) front back ↔ front ++ back = p :: cs ∧ WordOpens front back := by
  induction cs generalizing p front with
  | nil =>
    constructor
    · rw [wordsFrom, breaksAt_cons_iff]
      rintro ⟨former, latter, hlatter, hnil, -⟩
      exact absurd (List.append_eq_nil_iff.mp hnil.symm).2 hlatter
    · rintro ⟨heq, hopens⟩
      rcases List.append_eq_singleton_iff.mp heq with ⟨hnil, -⟩ | ⟨-, hnil⟩
      · exact absurd hnil hopens.ne_nil.1
      · exact absurd hnil hopens.ne_nil.2
  | cons c cs ih =>
    have hflatten := flatten_wordsFrom c cs
    obtain ⟨word, rest, heq, ⟨hupper, hopens, hcut⟩ | ⟨hclosed, hjoined⟩⟩ :=
      wordsFrom_cons_cases p c cs
    · have hword : WordOpens [p] (c :: cs) := (wordOpens_singleton_iff p c cs).mpr ⟨hupper, hopens⟩
      rw [hcut, breaksAt_cut_iff, ← heq, hflatten, wordOpens_in_cons_iff]
      simp only [ih, hword, and_true]
    · have hword : ¬ WordOpens [p] (c :: cs) := by
        rw [wordOpens_singleton_iff, ← Bool.and_eq_true, hclosed]
        exact Bool.false_ne_true
      rw [hjoined, breaksAt_joined_iff, ← heq, wordOpens_in_cons_iff]
      simp only [ih, hword, and_false, false_or]

theorem areWords_wordsOf (cs : List Char) : AreWords cs (wordsOf cs) := by
  cases cs with
  | nil =>
    refine ⟨rfl, fun front back => ⟨?_, ?_⟩⟩
    · rintro ⟨former, latter, hformer, -, heq, -⟩
      exact absurd (List.append_eq_nil_iff.mp heq.symm).1 hformer
    · rintro ⟨heq, hopens⟩
      exact absurd (List.append_eq_nil_iff.mp heq).1 hopens.ne_nil.1
  | cons c cs => exact ⟨flatten_wordsFrom c cs, breaksAt_wordsFrom_iff c cs⟩

example : wordsOf "getHTTPStatus_2X".toList =
    ["get".toList, "HTTP".toList, "Status_2".toList, "X".toList] := by decide +kernel

theorem ne_underscore_of_isUpper {c : Char} (h : isUpper c = true) : c ≠ '_' := by
  rintro rfl
  exact absurd h (by decide)

theorem ne_underscore_of_opensWord {p : Char} {after : Option Char}
    (h : opensWord (some p) after = true) : p ≠ '_' := by
  rintro rfl
  have hclosed : isLower '_' = false ∧ isUpper '_' = false := by decide
  simp [opensWord, hclosed] at h

theorem standApart_of_ne {p c : Char} (hp : p ≠ '_') (hc : c ≠ '_') (word : List Char) :
    StandApart (spelledWord [p]) (spelledWord (c :: word)) := by
  obtain ⟨hpletters, hpne⟩ := spelled_of_ne hp
  obtain ⟨hcletters, hcne⟩ := spelled_of_ne hc
  obtain ⟨d, ds, hd⟩ := List.exists_cons_of_ne_nil hcne
  refine ⟨⟨(spelled p).getLast hpne, ?_, ?_⟩, d, ?_, ?_⟩
  · simp [spelledWord, List.getLast?_eq_some_getLast hpne]
  · exact fun heq => hpletters (heq ▸ List.getLast_mem hpne)
  · simp [spelledWord, hd]
  · exact fun heq => hcletters (by simp [hd, heq])

theorem StandApart.append_left {word next : List Char} (h : StandApart word next)
    (front : List Char) : StandApart (front ++ word) next := by
  obtain ⟨⟨c, hc, hne⟩, hnext⟩ := h
  refine ⟨⟨c, ?_, hne⟩, hnext⟩
  rw [List.getLast?_append, Option.mem_def.mp hc]
  rfl

/-- Words meet at what was a capital and what is in front of it, none of them an underscore. -/
theorem isChain_wordsFrom (p : Char) (cs : List Char) :
    ((wordsFrom p cs).map spelledWord).IsChain StandApart := by
  induction cs generalizing p with
  | nil => exact List.isChain_singleton _
  | cons c cs ih =>
    have hrest := ih c
    obtain ⟨word, rest, heq, ⟨hupper, hopens, hcut⟩ | ⟨-, hjoined⟩⟩ := wordsFrom_cons_cases p c cs
    · rw [heq, List.map_cons] at hrest
      rw [hcut, List.map_cons, List.map_cons, List.isChain_cons_cons]
      exact ⟨standApart_of_ne (ne_underscore_of_opensWord hopens) (ne_underscore_of_isUpper hupper)
        word, hrest⟩
    · rw [heq, List.map_cons, List.isChain_cons] at hrest
      rw [hjoined, List.map_cons, List.isChain_cons]
      exact ⟨fun next hnext => (hrest.1 next hnext).append_left (spelled p), hrest.2⟩

theorem intercalate_wordsFrom (p : Char) (cs : List Char) :
    ['_'].intercalate ((wordsFrom p cs).map spelledWord) =
      spelled p ++ snakeFrom (some p) cs := by
  induction cs generalizing p with
  | nil => simp [wordsFrom, spelledWord, snakeFrom]
  | cons c cs ih =>
    have hrest := ih c
    obtain ⟨word, rest, heq, ⟨hupper, hopens, hcut⟩ | ⟨hclosed, hjoined⟩⟩ :=
      wordsFrom_cons_cases p c cs
    · rw [heq, List.map_cons] at hrest
      rw [hcut, List.map_cons, List.map_cons, List.intercalate_cons_cons, hrest, snakeFrom_cons,
        hupper, hopens]
      simp [spelledWord]
    · rw [heq, List.map_cons] at hrest
      rw [hjoined, List.map_cons, snakeFrom_cons, hclosed, ← hrest]
      cases rest with
      | nil => simp [spelledWord]
      | cons next rest => simp [spelledWord, List.intercalate_cons_cons]

theorem toList_snakeCase (s : String) : (snakeCase s).toList = snakeFrom none s.toList :=
  String.toList_ofList

/-- The spelling is made of the words of the text, each spelled small, with underscores between. -/
theorem snakeFrom_eq_intercalate (cs : List Char) :
    snakeFrom none cs = ['_'].intercalate ((wordsOf cs).map spelledWord) := by
  cases cs with
  | nil => rfl
  | cons c cs =>
    rw [wordsOf, intercalate_wordsFrom, snakeFrom_cons, opensWord, Bool.and_false]
    rfl

theorem isChain_wordsOf (cs : List Char) :
    ((wordsOf cs).map spelledWord).IsChain StandApart := by
  cases cs with
  | nil => exact List.isChain_nil
  | cons c cs => exact isChain_wordsFrom c cs

/-- The spelling written from left to right onto what is there, where no underscore is put behind
an underscore. -/
def snakeOnto (written : List Char) (before : Option Char) : List Char → List Char
  | [] => written
  | c :: cs =>
    if isUpper c then
      let gap := if opensWord before cs.head? && written.getLast? != some '_' then ['_'] else []
      snakeOnto (written ++ gap ++ lower c) (some c) cs
    else snakeOnto (written ++ [c]) (some c) cs

/-- What is written ends in an underscore only behind one, and no word opens there. So nothing is
ever left out. -/
theorem snakeOnto_eq (written : List Char) (before : Option Char) (cs : List Char)
    (h : ∀ p, before = some p → p ≠ '_' → written.getLast? ≠ some '_') :
    snakeOnto written before cs = written ++ snakeFrom before cs := by
  induction cs generalizing written before with
  | nil => simp [snakeOnto, snakeFrom]
  | cons c cs ih =>
    -- The condition holds again behind `c`, whatever is in front of its spelling.
    have hnext (front : List Char) : ∀ p, some c = some p → p ≠ '_' →
        (front ++ spelled c).getLast? ≠ some '_' := by
      intro p hp hne heq
      obtain rfl := Option.some.inj hp
      obtain ⟨hletters, hnil⟩ := spelled_of_ne hne
      rw [List.getLast?_append_of_ne_nil _ hnil] at heq
      exact hletters (List.mem_of_getLast? heq)
    have hgap : (opensWord before cs.head? && written.getLast? != some '_') =
        opensWord before cs.head? := by
      cases before with
      | none => rfl
      | some p =>
        cases hopens : opensWord (some p) cs.head? with
        | false => rfl
        | true => simpa using h p rfl (ne_underscore_of_opensWord hopens)
    rw [snakeFrom_cons]
    by_cases hc : isUpper c = true
    · have hspelled : lower c = spelled c := by rw [spelled, if_pos hc]
      rw [snakeOnto, if_pos hc, hgap, hspelled, ih _ _ (hnext _), hc, Bool.true_and]
      simp
    · have hspelled : [c] = spelled c := by rw [spelled, if_neg hc]
      rw [snakeOnto, if_neg hc, hspelled, ih _ _ (hnext _)]
      simp [hc]

theorem snakeFrom_eq_self (before : Option Char) {cs : List Char}
    (h : ∀ c ∈ cs, isUpper c = false) : snakeFrom before cs = cs := by
  induction cs generalizing before with
  | nil => rfl
  | cons c cs ih =>
    rw [snakeFrom, h c List.mem_cons_self, if_neg Bool.false_ne_true,
      ih (some c) fun d hd => h d (List.mem_cons_of_mem c hd)]

theorem snakeCase_eq_self {s : String} (h : ∀ c ∈ s.toList, isUpper c = false) :
    snakeCase s = s := by
  rw [snakeCase, snakeFrom_eq_self none h, String.ofList_toList]

/-- The spelling of an ASCII text holds no capital. -/
theorem isUpper_of_mem_snakeCase {s : String} (h : ∀ c ∈ s.toList, c.toNat < 128) :
    ∀ d ∈ (snakeCase s).toList, isUpper d = false := by
  intro d hd
  rw [toList_snakeCase] at hd
  rcases mem_snakeFrom hd with rfl | ⟨c, hc, hspelled⟩
  · decide
  · exact isUpper_of_mem_spelled (h c hc) hspelled

theorem escapeKeyword_cases (name : String) :
    (name ∈ neverRaw ∧ escapeKeyword name = name ++ "_") ∨
      (name ∈ keywords ∧ escapeKeyword name = "r#" ++ name) ∨ escapeKeyword name = name := by
  unfold escapeKeyword
  split
  · next hraw => exact Or.inl ⟨List.contains_iff_mem.mp hraw, rfl⟩
  · split
    · next hkeyword => exact Or.inr (Or.inl ⟨List.contains_iff_mem.mp hkeyword, rfl⟩)
    · exact Or.inr (Or.inr rfl)

/-- An escaped word is no word of the language, so it is not escaped once more. -/
theorem escapeKeyword_escapeKeyword (name : String) :
    escapeKeyword (escapeKeyword name) = escapeKeyword name := by
  have hunderscore : ∀ word ∈ neverRaw, escapeKeyword (word ++ "_") = word ++ "_" := by
    decide +kernel
  have hmarker : ∀ word ∈ keywords, escapeKeyword ("r#" ++ word) = "r#" ++ word := by
    decide +kernel
  obtain ⟨hraw, heq⟩ | ⟨hkeyword, heq⟩ | heq := escapeKeyword_cases name
  · rw [heq, hunderscore name hraw]
  · rw [heq, hmarker name hkeyword]
  · rw [heq, heq]

/-- No escape brings a capital. -/
theorem isUpper_of_mem_escapeKeyword {name : String} (h : ∀ c ∈ name.toList, isUpper c = false) :
    ∀ d ∈ (escapeKeyword name).toList, isUpper d = false := by
  have hsmall : isUpper '_' = false ∧ isUpper 'r' = false ∧ isUpper '#' = false := by decide
  have hunderscore : ∀ d ∈ "_".toList, isUpper d = false := by simp [hsmall]
  have hmarker : ∀ d ∈ "r#".toList, isUpper d = false := by simp [hsmall]
  obtain ⟨-, heq⟩ | ⟨-, heq⟩ | heq := escapeKeyword_cases name
  · rw [heq, String.toList_append]
    exact List.forall_mem_append.mpr ⟨h, hunderscore⟩
  · rw [heq, String.toList_append]
    exact List.forall_mem_append.mpr ⟨hmarker, h⟩
  · rwa [heq]

/-- A name that was generated from an ASCII text generates itself. -/
theorem methodName_methodName {s : String} (h : ∀ c ∈ s.toList, c.toNat < 128) :
    methodName (methodName s) = methodName s := by
  have hsmall : ∀ d ∈ (methodName s).toList, isUpper d = false :=
    isUpper_of_mem_escapeKeyword (isUpper_of_mem_snakeCase h)
  calc escapeKeyword (snakeCase (methodName s))
      = escapeKeyword (methodName s) := by rw [snakeCase_eq_self hsmall]
    _ = methodName s := escapeKeyword_escapeKeyword _

-- Past ASCII a capital may have no small form, and then the second spelling may cut once more.
example : snakeCase "𝐀𝐀A" = "𝐀𝐀a" ∧ snakeCase "𝐀𝐀a" = "𝐀_𝐀a" := by decide +kernel

theorem IsHandlerName.ascii {name : String} (h : IsHandlerName name) :
    ∀ c ∈ name.toList, c.toNat < 128 := by
  intro c hc
  apply toNat_lt_of_isWordChar
  simpa [isWordChar] using h.2.1 c hc

/-- A text is spelled character by character, each in its place and capitals small, and nothing is
added but an underscore between each word and the next, where it meets no other underscore. So it
would change nothing to leave one out behind another. An ASCII text that is spelled is spelled for
good, a name that is generated from it generates itself, and every accepted handler name generates
an identifier in small letters. -/
theorem spelling_adds_only_underscores (s : String) :
    (snakeCase s).toList.filter (· ≠ '_') = (s.toList.filter (· ≠ '_')).flatMap spelled ∧
    (∃ words, AreWords s.toList words ∧
      (snakeCase s).toList = ['_'].intercalate (words.map spelledWord) ∧
      (words.map spelledWord).IsChain StandApart) ∧
    (snakeCase s).toList = snakeOnto [] none s.toList ∧
    ((∀ c ∈ s.toList, c.toNat < 128) →
      snakeCase (snakeCase s) = snakeCase s ∧ methodName (methodName s) = methodName s) ∧
    (handlerDefect? s = none →
      isIdentifier (methodName s) = true ∧ ∀ c ∈ (methodName s).toList, isUpper c = false) := by
  rw [toList_snakeCase]
  refine ⟨filter_snakeFrom none s.toList, ?_, ?_, fun hascii => ?_, fun haccepted => ?_⟩
  · exact ⟨wordsOf s.toList, areWords_wordsOf s.toList, snakeFrom_eq_intercalate s.toList,
      isChain_wordsOf s.toList⟩
  · rw [snakeOnto_eq [] none s.toList (fun p hp => by cases hp), List.nil_append]
  · exact ⟨snakeCase_eq_self (isUpper_of_mem_snakeCase hascii), methodName_methodName hascii⟩
  · have hname := (Route.handlerDefect?_eq_none_iff s).mp haccepted
    exact ⟨isIdentifier_methodName hname,
      isUpper_of_mem_escapeKeyword (isUpper_of_mem_snakeCase hname.ascii)⟩

/-- Two accepted names, one with underscores of its own beside capitals and digits, the other a
keyword once it is spelled. -/
theorem crowded_names_gain_only_underscores :
    ((∀ c ∈ "_getHTTPStatus2X__Fn".toList, c.toNat < 128) ∧
      handlerDefect? "_getHTTPStatus2X__Fn" = none ∧
      methodName "_getHTTPStatus2X__Fn" = "_get_http_status2_x__fn" ∧
      methodName "_get_http_status2_x__fn" = "_get_http_status2_x__fn" ∧
      isIdentifier "_get_http_status2_x__fn" = true) ∧
    (∀ c ∈ "SELF".toList, c.toNat < 128) ∧ handlerDefect? "SELF" = none ∧
      snakeCase "SELF" = "self" ∧ methodName "SELF" = "self_" ∧ methodName "self_" = "self_" ∧
      isIdentifier "self_" = true := by
  have hcrowded : methodName "_getHTTPStatus2X__Fn" = "_get_http_status2_x__fn" := by
    decide +kernel
  have hself : methodName "SELF" = "self_" := by decide +kernel
  have hcrowdedAscii : ∀ c ∈ "_getHTTPStatus2X__Fn".toList, c.toNat < 128 := by simp
  have hselfAscii : ∀ c ∈ "SELF".toList, c.toNat < 128 := by simp
  have hcrowdedAccepted : handlerDefect? "_getHTTPStatus2X__Fn" = none := by decide +kernel
  have hselfAccepted : handlerDefect? "SELF" = none := by decide +kernel
  obtain ⟨-, -, -, htwice, hnamed⟩ := spelling_adds_only_underscores "_getHTTPStatus2X__Fn"
  obtain ⟨-, -, -, hselfTwice, hselfNamed⟩ := spelling_adds_only_underscores "SELF"
  have hagain := (htwice hcrowdedAscii).2
  have hselfAgain := (hselfTwice hselfAscii).2
  have hidentifier := (hnamed hcrowdedAccepted).1
  have hselfIdentifier := (hselfNamed hselfAccepted).1
  rw [hcrowded] at hagain hidentifier
  rw [hself] at hselfAgain hselfIdentifier
  exact ⟨⟨hcrowdedAscii, hcrowdedAccepted, hcrowded, hagain, hidentifier⟩, hselfAscii,
    hselfAccepted, by decide +kernel, hself, hselfAgain, hselfIdentifier⟩

end Scaffold.Naming
