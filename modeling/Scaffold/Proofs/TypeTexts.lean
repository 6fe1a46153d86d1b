import Scaffold.Proofs.UseLines

/-!
The texts of types without imported items. The first characters of such a text tell how the type is
made, and a part of it ends in front of a comma or a closing mark, which no part goes on with. So
two types that are written alike are the same type.
-/

namespace Scaffold.Source

open Naming

mutual

/-- Whether the type is made without imported items. -/
@[simp] def Ty.isLocal : Ty → Bool
  | .named _ args => areLocal args
  | .imported _ _ => false
  | .ref inner => inner.isLocal
  | .staticRef inner => inner.isLocal
  | .function params result => areLocal params && result.isLocal
  | .tuple items => areLocal items
  | .infer => true
  | .static => true

@[simp] def areLocal : List Ty → Bool
  | [] => true
  | t :: ts => t.isLocal && areLocal ts

end

namespace Ty

/-- The text of a type, or the first of its requirements that fails. -/
def render (imports : Imports) (speak : Speaker) (t : Ty) : Except RenderError String :=
  match t.requirements.findSome? (Requirement.defect? imports) with
  | some e => .error e
  | none => .ok (t.text speak)

theorem render_eq_ok_iff {imports : Imports} {speak : Speaker} {t : Ty} {text : String} :
    t.render imports speak = .ok text ↔ Met imports t.requirements ∧ text = t.text speak := by
  have hmet : Met imports t.requirements ↔
      t.requirements.findSome? (Requirement.defect? imports) = none := by
    simp [Met]
  rw [hmet, render]
  cases t.requirements.findSome? (Requirement.defect? imports) <;> simp [eq_comm]

/-- The type is made without imported items and has a text. -/
def IsPlain (imports : Imports) (t : Ty) : Prop :=
  t.isLocal = true ∧ Met imports t.requirements

section

variable {imports : Imports}

theorem isPlain_list_iff {ts : List Ty} :
    areLocal ts = true ∧ Met imports (tyRequirements ts) ↔ ∀ t ∈ ts, t.IsPlain imports := by
  induction ts with
  | nil => simp
  | cons t ts ih =>
    rw [List.forall_mem_cons, ← ih]
    simp [IsPlain, and_and_and_comm]

theorem isPlain_named_iff {path : String} {args : List Ty} :
    (named path args).IsPlain imports ↔ isPath path = true ∧ ∀ t ∈ args, t.IsPlain imports := by
  rw [← isPlain_list_iff]
  simp [IsPlain, and_left_comm]

theorem isPlain_function_iff {params : List Ty} {result : Ty} :
    (function params result).IsPlain imports ↔
      (∀ t ∈ params, t.IsPlain imports) ∧ result.IsPlain imports := by
  rw [← isPlain_list_iff]
  simp [IsPlain, and_and_and_comm]

theorem isPlain_tuple_iff {items : List Ty} :
    (tuple items).IsPlain imports ↔ ∀ t ∈ items, t.IsPlain imports := isPlain_list_iff

theorem not_isPlain_imported (s : Symbol) (args : List Ty) : ¬ (imported s args).IsPlain imports :=
  fun h => absurd h.1 (by simp)

end

def isPathChar (c : Char) : Bool := isWordChar c || c == '#' || c == ':'

theorem isPathChar_of_isPath {path : String} (h : isPath path = true) :
    ∀ c ∈ path.toList, isPathChar c = true := by
  intro c hc
  rcases inSegment_of_isPath h hc with (hword | rfl) | rfl
  · simp [isPathChar, hword]
  · rfl
  · rfl

/-- How a type is made. -/
inductive Form where
  | named (path : List Char)
  | ref | staticRef | function | tuple | infer | static

def form : Ty → Form
  | .named path _ => .named path.toList
  | .imported s _ => .named s.name.toList
  | .ref _ => .ref
  | .staticRef _ => .staticRef
  | .function _ _ => .function
  | .tuple _ => .tuple
  | .infer => .infer
  | .static => .static

/-- How the type at the head of a text is made. -/
def Form.ofText (cs : List Char) : Form :=
  match cs with
  | '&' :: rest => if "'static ".toList.isPrefixOf rest then .staticRef else .ref
  | '(' :: _ => .tuple
  | '\'' :: _ => .static
  | cs =>
    let word := cs.takeWhile isPathChar
    if word = ['_'] then .infer else if word = ['f', 'n'] then .function else .named word

/-- What follows a type: nothing, a comma or a closing mark. -/
def Ends (r : List Char) : Prop := ∀ c ∈ r.head?, c = ',' ∨ c = ')' ∨ c = '>'

theorem Ends.isPathChar_eq_false {r : List Char} (h : Ends r) :
    ∀ c ∈ r.head?, isPathChar c = false := by
  intro c hc
  rcases h c hc with rfl | rfl | rfl <;> decide

variable {imports : Imports} {speak : Speaker}

/-- What other types than paths start with, and what may close a list of types. -/
theorem isPathChar_eq_false {d : Char} (h : d ∈ ['&', '(', '\'', ')', '>']) :
    isPathChar d = false := by
  simp only [List.mem_cons, List.not_mem_nil, or_false] at h
  rcases h with rfl | rfl | rfl | rfl | rfl <;> decide

/-- A word that is no reference, tuple or lifetime goes as far as the characters of paths do. -/
theorem Form.ofText_word {word r : List Char} (hne : word ≠ [])
    (hword : ∀ c ∈ word, isPathChar c = true) (hr : ∀ c ∈ r.head?, isPathChar c = false) :
    Form.ofText (word ++ r) =
      if word = ['_'] then .infer else if word = ['f', 'n'] then .function else .named word := by
  obtain ⟨c, cs, rfl⟩ := List.exists_cons_of_ne_nil hne
  have htake : (c :: cs ++ r).takeWhile isPathChar = c :: cs := by
    rw [List.takeWhile_append_of_pos hword]
    cases r with
    | nil => simp
    | cons d r => simp [hr d rfl]
  have hhead : ∀ d ∈ ['&', '(', '\''], c ≠ d := by
    rintro d hd rfl
    have hmark := isPathChar_eq_false (List.mem_append_left [')', '>'] hd)
    exact absurd (hword c List.mem_cons_self) (by simp [hmark])
  simp only [List.forall_mem_cons, List.not_mem_nil] at hhead
  rw [Form.ofText.eq_def]
  simp only [List.cons_append] at htake ⊢
  split
  · simp_all
  · simp_all
  · simp_all
  · rw [htake]

/-- The texts of types, each behind a comma. -/
def following (speak : Speaker) (ts : List Ty) : List Char :=
  ts.flatMap fun t => ',' :: ' ' :: (t.text speak).toList

theorem toList_commaed_cons (t : Ty) (ts : List Ty) :
    (commaed (tyTexts speak (t :: ts))).toList = (t.text speak).toList ++ following speak ts := by
  induction ts generalizing t with
  | nil => simp [commaed, tyTexts, following]
  | cons u us ih =>
    have hrest := ih u
    simp only [commaed, tyTexts, String.intercalate_cons_cons, String.toList_append] at hrest ⊢
    rw [hrest]
    simp [following]

theorem toList_text_named (path : String) (args : List Ty) :
    ((named path args).text speak).toList = path.toList ++ (tyArgs speak args).toList := by
  simp [text]

theorem toList_tyArgs_cons (t : Ty) (ts : List Ty) :
    (tyArgs speak (t :: ts)).toList =
      '<' :: ((t.text speak).toList ++ following speak ts ++ ['>']) := by
  have hitems := @toList_commaed_cons speak t ts
  rw [tyTexts] at hitems
  simp [tyArgs, hitems]

theorem toList_text_function (params : List Ty) (result : Ty) :
    ((function params result).text speak).toList =
      'f' :: 'n' :: '(' :: ((commaed (tyTexts speak params)).toList ++
        (')' :: ' ' :: '-' :: '>' :: ' ' :: (result.text speak).toList)) := by
  simp [text]

theorem toList_text_tuple_nil : ((tuple []).text speak).toList = ['(', ')'] := by
  simp [text, tyTexts, commaed]

/-- What stands behind the first item of a tuple. The only item has a comma behind it. -/
def behindFirst (speak : Speaker) : List Ty → List Char
  | [] => [',', ')']
  | t :: ts => following speak (t :: ts) ++ [')']

theorem toList_text_tuple_cons (t : Ty) (ts : List Ty) :
    ((tuple (t :: ts)).text speak).toList =
      '(' :: ((t.text speak).toList ++ behindFirst speak ts) := by
  cases ts with
  | nil => simp [text, behindFirst]
  | cons u us =>
    have hmany : ∀ v, t :: u :: us ≠ [v] := by simp
    have hitems := @toList_commaed_cons speak t (u :: us)
    rw [text.eq_def]
    simp [hitems, behindFirst]

theorem toList_text_ref (inner : Ty) :
    ((ref inner).text speak).toList = '&' :: (inner.text speak).toList := by
  simp [text]

theorem toList_text_staticRef (inner : Ty) :
    ((staticRef inner).text speak).toList =
      '&' :: ("'static ".toList ++ (inner.text speak).toList) := by
  simp [text]

theorem ne_nil_of_isPath {path : String} (h : isPath path = true) : path.toList ≠ [] := by
  intro hnil
  rw [String.toList_eq_nil_iff.mp hnil] at h
  exact absurd h (by decide +kernel)

theorem ends_tyArgs (args : List Ty) {r : List Char} (hr : Ends r) :
    ∀ c ∈ ((tyArgs speak args).toList ++ r).head?, isPathChar c = false := by
  cases args with
  | nil => simpa [tyArgs] using hr.isPathChar_eq_false
  | cons t ts =>
    rw [toList_tyArgs_cons]
    simp [isPathChar]
    decide

theorem exists_text_tuple_eq_cons (items : List Ty) :
    ∃ cs, ((tuple items).text speak).toList = '(' :: cs := by
  cases items with
  | nil => exact ⟨_, toList_text_tuple_nil⟩
  | cons t ts => exact ⟨_, toList_text_tuple_cons t ts⟩

/-- A type starts with no closing mark, and with a quote only if it is the lifetime. -/
theorem exists_text_eq_cons {t : Ty} (h : t.IsPlain imports) :
    ∃ c cs, (t.text speak).toList = c :: cs ∧ c ∉ [')', '>'] ∧ (c = '\'' → t = .static) := by
  cases t with
  | named path args =>
    have hpath := (isPlain_named_iff.mp h).1
    obtain ⟨c, cs, hcons⟩ := List.exists_cons_of_ne_nil (ne_nil_of_isPath hpath)
    have hc : isPathChar c = true := isPathChar_of_isPath hpath c (hcons ▸ List.mem_cons_self)
    refine ⟨c, cs ++ (tyArgs speak args).toList, by rw [toList_text_named, hcons]; rfl, ?_, ?_⟩
    · intro hmem
      have hfalse := isPathChar_eq_false (List.mem_append_right ['&', '(', '\''] hmem)
      exact absurd hc (by simp [hfalse])
    · rintro rfl
      exact absurd hc (by decide)
  | imported s args => exact absurd h (not_isPlain_imported s args)
  | ref inner => exact ⟨_, _, toList_text_ref inner, by decide, nofun⟩
  | staticRef inner => exact ⟨_, _, toList_text_staticRef inner, by decide, nofun⟩
  | function params result => exact ⟨_, _, toList_text_function params result, by decide, nofun⟩
  | tuple items =>
    obtain ⟨cs, hcs⟩ := @exists_text_tuple_eq_cons speak items
    exact ⟨_, cs, hcs, by decide, nofun⟩
  | infer => exact ⟨'_', [], by simp [text], by decide, nofun⟩
  | static => exact ⟨'\'', "static".toList, by simp [text], by decide, fun _ => rfl⟩

/-- A reference to the lifetime alone is no reference that lives as long. -/
theorem not_isPrefixOf_text {t : Ty} (h : t.IsPlain imports) {r : List Char} (hr : Ends r) :
    "'static ".toList.isPrefixOf ((t.text speak).toList ++ r) = false := by
  obtain ⟨c, cs, hcons, -, hquote⟩ := @exists_text_eq_cons imports speak _ h
  by_cases hc : c = '\''
  · obtain rfl := hquote hc
    rw [text]
    cases r with
    | nil => rfl
    | cons d r => rcases hr d rfl with rfl | rfl | rfl <;> rfl
  · rw [hcons]
    simp [List.isPrefixOf, Ne.symm hc]

/-- The text of a type, in front of what ends it, tells how the type is made. -/
theorem ofText_text {t : Ty} (h : t.IsPlain imports) {r : List Char} (hr : Ends r) :
    Form.ofText ((t.text speak).toList ++ r) = t.form := by
  cases t with
  | named path args =>
    have hpath := (isPlain_named_iff.mp h).1
    rw [toList_text_named, List.append_assoc,
      Form.ofText_word (ne_nil_of_isPath hpath) (isPathChar_of_isPath hpath) (ends_tyArgs args hr)]
    have hnames : path ≠ "_" ∧ path ≠ "fn" := by
      constructor
      all_goals
        rintro rfl
        exact absurd hpath (by decide +kernel)
    have hlists : path.toList ≠ ['_'] ∧ path.toList ≠ ['f', 'n'] :=
      ⟨fun heq => hnames.1 (String.toList_inj.mp heq),
        fun heq => hnames.2 (String.toList_inj.mp heq)⟩
    rw [if_neg hlists.1, if_neg hlists.2]
    rfl
  | imported s args => exact absurd h (not_isPlain_imported s args)
  | ref inner =>
    have hprefix := @not_isPrefixOf_text imports speak inner h _ hr
    rw [toList_text_ref, List.cons_append, Form.ofText, hprefix]
    rfl
  | staticRef inner => simp [toList_text_staticRef, Form.ofText, form]
  | function params result =>
    rw [toList_text_function]
    exact @Form.ofText_word ['f', 'n'] _ (by simp) (List.all_eq_true.mp (by decide))
      (by simp; decide)
  | tuple items =>
    obtain ⟨cs, hcs⟩ := @exists_text_tuple_eq_cons speak items
    rw [hcs]
    rfl
  | infer =>
    rw [text]
    exact @Form.ofText_word ['_'] _ (by simp) (List.all_eq_true.mp (by decide))
      hr.isPathChar_eq_false
  | static => simp [text, Form.ofText, form]

/-- No other type has the same text in front of what ends it. -/
def IsUnique (imports : Imports) (speak : Speaker) (t : Ty) : Prop :=
  ∀ (u : Ty) (r r' : List Char), u.IsPlain imports → Ends r → Ends r' →
    (t.text speak).toList ++ r = (u.text speak).toList ++ r' → t = u ∧ r = r'

/-- What ends a list of types. -/
def IsClosing (c : Char) : Prop := c = ')' ∨ c = '>'

theorem IsClosing.mem {c : Char} (h : IsClosing c) : c ∈ [')', '>'] := by
  rcases h with rfl | rfl <;> decide

theorem IsClosing.ends {c : Char} (h : IsClosing c) (r : List Char) : Ends (c :: r) := by
  rintro d hd
  obtain rfl : c = d := by simpa using hd
  exact .inr h

theorem ends_following {c : Char} (h : IsClosing c) (ts : List Ty) (r : List Char) :
    Ends (following speak ts ++ c :: r) := by
  cases ts with
  | nil => exact h.ends r
  | cons t ts => simp [following, Ends]

section

variable {c : Char} (hc : IsClosing c) {r r' : List Char}

include hc

theorem eq_of_following : ∀ {ts us : List Ty}, (∀ t ∈ ts, t.IsUnique imports speak) →
    (∀ u ∈ us, u.IsPlain imports) →
    following speak ts ++ c :: r = following speak us ++ c :: r' → ts = us ∧ r = r'
  | [], [], _, _, heq => ⟨rfl, (List.cons.inj heq).2⟩
  | [], u :: us, _, _, heq => by
    have hcomma : c = ',' := (List.cons.inj heq).1
    rcases hc with rfl | rfl <;> cases hcomma
  | t :: ts, [], _, _, heq => by
    have hcomma : ',' = c := (List.cons.inj heq).1
    rcases hc with rfl | rfl <;> cases hcomma
  | t :: ts, u :: us, hts, hus, heq => by
    rw [List.forall_mem_cons] at hts hus
    have hrest : (t.text speak).toList ++ (following speak ts ++ c :: r) =
        (u.text speak).toList ++ (following speak us ++ c :: r') := by
      simpa [following] using heq
    obtain ⟨rfl, hfollowing⟩ :=
      hts.1 u _ _ hus.1 (ends_following hc ts r) (ends_following hc us r') hrest
    obtain ⟨rfl, rfl⟩ := eq_of_following hts.2 hus.2 hfollowing
    exact ⟨rfl, rfl⟩

theorem eq_of_commaed {ts us : List Ty} (hts : ∀ t ∈ ts, t.IsUnique imports speak)
    (hplain : ∀ t ∈ ts, t.IsPlain imports) (hus : ∀ u ∈ us, u.IsPlain imports)
    (heq : (commaed (tyTexts speak ts)).toList ++ c :: r =
      (commaed (tyTexts speak us)).toList ++ c :: r') : ts = us ∧ r = r' := by
  -- The first type of one list does not start with the mark that closes the other.
  have hmark {t : Ty} {ts : List Ty} (ht : t.IsPlain imports) (q q' : List Char) :
      c :: q ≠ (commaed (tyTexts speak (t :: ts))).toList ++ q' := by
    obtain ⟨d, cs, hcons, hd, -⟩ := @exists_text_eq_cons imports speak _ ht
    rw [toList_commaed_cons, hcons]
    rintro heq
    exact hd ((List.cons.inj heq).1 ▸ hc.mem)
  cases ts with
  | nil =>
    cases us with
    | nil => exact ⟨rfl, (List.cons.inj heq).2⟩
    | cons u us => exact absurd heq (hmark (hus u List.mem_cons_self) _ _)
  | cons t ts =>
    cases us with
    | nil => exact absurd heq.symm (hmark (hplain t List.mem_cons_self) _ _)
    | cons u us =>
      rw [List.forall_mem_cons] at hts hus
      rw [toList_commaed_cons, toList_commaed_cons, List.append_assoc, List.append_assoc] at heq
      obtain ⟨rfl, hfollowing⟩ :=
        hts.1 u _ _ hus.1 (ends_following hc ts r) (ends_following hc us r') heq
      obtain ⟨rfl, rfl⟩ := eq_of_following hc hts.2 hus.2 hfollowing
      exact ⟨rfl, rfl⟩

end

theorem eq_of_tyArgs {ts us : List Ty} (hts : ∀ t ∈ ts, t.IsUnique imports speak)
    (hplain : ∀ t ∈ ts, t.IsPlain imports) (hus : ∀ u ∈ us, u.IsPlain imports) {r r' : List Char}
    (hr : Ends r) (hr' : Ends r')
    (heq : (tyArgs speak ts).toList ++ r = (tyArgs speak us).toList ++ r') : ts = us ∧ r = r' := by
  have hopen {t : Ty} {ts : List Ty} {q q' : List Char} (hq : Ends q) :
      q ≠ (tyArgs speak (t :: ts)).toList ++ q' := by
    rintro rfl
    rw [toList_tyArgs_cons] at hq
    exact absurd (hq '<' rfl) (by decide)
  cases ts with
  | nil =>
    cases us with
    | nil => exact ⟨rfl, heq⟩
    | cons u us => exact absurd heq (hopen hr)
  | cons t ts =>
    cases us with
    | nil => exact absurd heq.symm (hopen hr')
    | cons u us =>
      simp only [toList_tyArgs_cons, List.cons_append, List.append_assoc, List.nil_append,
        List.cons.injEq, true_and] at heq
      simp only [← List.append_assoc, ← toList_commaed_cons] at heq
      exact eq_of_commaed (.inr rfl) hts hplain hus (by simpa using heq)

theorem ends_behindFirst (ts : List Ty) (r : List Char) : Ends (behindFirst speak ts ++ r) := by
  cases ts <;> simp [behindFirst, following, Ends]

theorem eq_of_behindFirst {ts us : List Ty} (hts : ∀ t ∈ ts, t.IsUnique imports speak)
    (hus : ∀ u ∈ us, u.IsPlain imports) {r r' : List Char}
    (heq : behindFirst speak ts ++ r = behindFirst speak us ++ r') : ts = us ∧ r = r' := by
  cases ts with
  | nil =>
    cases us with
    | nil => exact ⟨rfl, by simpa [behindFirst] using heq⟩
    | cons u us => simp [behindFirst, following] at heq
  | cons t ts =>
    cases us with
    | nil => simp [behindFirst, following] at heq
    | cons u us =>
      simp only [behindFirst, List.append_assoc, List.singleton_append] at heq
      exact eq_of_following (.inl rfl) hts hus heq

section

variable {inner result u : Ty} {params items args : List Ty} {path : String} {r r' : List Char}

/-- Types with the same text are made alike. -/
theorem form_eq {t : Ty} (ht : t.IsPlain imports) (hu : u.IsPlain imports) (hr : Ends r)
    (hr' : Ends r') (heq : (t.text speak).toList ++ r = (u.text speak).toList ++ r') :
    t.form = u.form := by
  rw [← @ofText_text imports speak _ ht _ hr, heq, ofText_text hu hr']

theorem isUnique_named (h : (named path args).IsPlain imports)
    (hargs : ∀ t ∈ args, t.IsUnique imports speak) :
    (named path args).IsUnique imports speak := by
  intro u r r' hu hr hr' heq
  have hform := form_eq h hu hr hr' heq
  cases u with
  | named other args' =>
    obtain rfl : path = other := String.toList_inj.mp (Form.named.inj hform)
    simp only [toList_text_named, List.append_assoc, List.append_cancel_left_eq] at heq
    obtain ⟨rfl, rfl⟩ := eq_of_tyArgs hargs (isPlain_named_iff.mp h).2 (isPlain_named_iff.mp hu).2
      hr hr' heq
    exact ⟨rfl, rfl⟩
  | imported s args' => exact absurd hu (not_isPlain_imported s args')
  | _ => cases hform

theorem isUnique_ref (h : (ref inner).IsPlain imports) (hinner : inner.IsUnique imports speak) :
    (ref inner).IsUnique imports speak := by
  intro u r r' hu hr hr' heq
  have hform := form_eq h hu hr hr' heq
  cases u with
  | ref other =>
    simp only [toList_text_ref, List.cons_append, List.cons.injEq, true_and] at heq
    obtain ⟨rfl, rfl⟩ := hinner other r r' hu hr hr' heq
    exact ⟨rfl, rfl⟩
  | _ => cases hform

theorem isUnique_staticRef (h : (staticRef inner).IsPlain imports)
    (hinner : inner.IsUnique imports speak) : (staticRef inner).IsUnique imports speak := by
  intro u r r' hu hr hr' heq
  have hform := form_eq h hu hr hr' heq
  cases u with
  | staticRef other =>
    simp only [toList_text_staticRef, List.cons_append, List.append_assoc, List.cons.injEq,
      true_and, List.append_cancel_left_eq] at heq
    obtain ⟨rfl, rfl⟩ := hinner other r r' hu hr hr' heq
    exact ⟨rfl, rfl⟩
  | _ => cases hform

theorem isUnique_function (h : (function params result).IsPlain imports)
    (hparams : ∀ t ∈ params, t.IsUnique imports speak) (hresult : result.IsUnique imports speak) :
    (function params result).IsUnique imports speak := by
  intro u r r' hu hr hr' heq
  have hform := form_eq h hu hr hr' heq
  cases u with
  | function params' result' =>
    have hplain := (isPlain_function_iff.mp h).1
    have hother := isPlain_function_iff.mp hu
    simp only [toList_text_function, List.cons_append, List.append_assoc, List.cons.injEq,
      true_and] at heq
    obtain ⟨rfl, hrest⟩ := eq_of_commaed (.inl rfl) hparams hplain hother.1 heq
    simp only [List.cons.injEq, true_and] at hrest
    obtain ⟨rfl, rfl⟩ := hresult result' r r' hother.2 hr hr' hrest
    exact ⟨rfl, rfl⟩
  | _ => cases hform

theorem isUnique_tuple (h : (tuple items).IsPlain imports)
    (hitems : ∀ t ∈ items, t.IsUnique imports speak) : (tuple items).IsUnique imports speak := by
  intro u r r' hu hr hr' heq
  have hform := form_eq h hu hr hr' heq
  cases u with
  | tuple items' =>
    have hplain := isPlain_tuple_iff.mp h
    have hother := isPlain_tuple_iff.mp hu
    -- No item starts with the mark that closes the empty tuple.
    have hmark {t : Ty} (ht : t.IsPlain imports) (q q' : List Char) :
        ')' :: q ≠ (t.text speak).toList ++ q' := by
      obtain ⟨c, cs, hcons, hc, -⟩ := @exists_text_eq_cons imports speak _ ht
      rw [hcons]
      rintro heq
      exact hc ((List.cons.inj heq).1 ▸ List.mem_cons_self)
    cases items with
    | nil =>
      cases items' with
      | nil => exact ⟨rfl, List.append_cancel_left heq⟩
      | cons t ts =>
        simp only [toList_text_tuple_nil, toList_text_tuple_cons, List.cons_append,
          List.append_assoc, List.nil_append, List.cons.injEq, true_and] at heq
        exact absurd heq (hmark (hother t List.mem_cons_self) _ _)
    | cons t ts =>
      cases items' with
      | nil =>
        simp only [toList_text_tuple_nil, toList_text_tuple_cons, List.cons_append,
          List.append_assoc, List.nil_append, List.cons.injEq, true_and] at heq
        exact absurd heq.symm (hmark (hplain t List.mem_cons_self) _ _)
      | cons t' ts' =>
        rw [List.forall_mem_cons] at hitems hother
        simp only [toList_text_tuple_cons, List.cons_append, List.append_assoc, List.cons.injEq,
          true_and] at heq
        obtain ⟨rfl, hrest⟩ := hitems.1 t' _ _ hother.1 (ends_behindFirst ts r)
          (ends_behindFirst ts' r') heq
        obtain ⟨rfl, rfl⟩ := eq_of_behindFirst hitems.2 hother.2 hrest
        exact ⟨rfl, rfl⟩
  | _ => cases hform

/-- A type without parts is its form. -/
theorem isUnique_of_form {t : Ty} (h : t.IsPlain imports) (ht : ∀ u : Ty, t.form = u.form → t = u) :
    t.IsUnique imports speak := by
  intro u r r' hu hr hr' heq
  obtain rfl := ht u (form_eq h hu hr hr' heq)
  exact ⟨rfl, List.append_cancel_left heq⟩

end

mutual

theorem isUnique (speak : Speaker) : ∀ t : Ty, t.IsPlain imports → t.IsUnique imports speak
  | .named path args, h =>
    isUnique_named h (allUnique speak args (isPlain_named_iff.mp h).2)
  | .imported s args, h => absurd h (not_isPlain_imported s args)
  | .ref inner, h => isUnique_ref h (inner.isUnique speak h)
  | .staticRef inner, h => isUnique_staticRef h (inner.isUnique speak h)
  | .function params result, h =>
    have hparts := isPlain_function_iff.mp h
    isUnique_function h (allUnique speak params hparts.1) (result.isUnique speak hparts.2)
  | .tuple items, h => isUnique_tuple h (allUnique speak items (isPlain_tuple_iff.mp h))
  | .infer, h => isUnique_of_form h fun u heq => by cases u <;> first | rfl | cases heq
  | .static, h => isUnique_of_form h fun u heq => by cases u <;> first | rfl | cases heq

theorem allUnique (speak : Speaker) : ∀ ts : List Ty, (∀ t ∈ ts, t.IsPlain imports) →
    ∀ t ∈ ts, t.IsUnique imports speak
  | [], _ => nofun
  | t :: ts, h => by
    rw [List.forall_mem_cons] at h ⊢
    exact ⟨t.isUnique speak h.1, allUnique speak ts h.2⟩

end

/-- Two types without imported items that have texts are written differently unless they are the
same. -/
theorem texts_of_local_types_differ {imports : Imports} {speak : Speaker} {t u : Ty}
    {text other : String} (hlocal : t.isLocal = true) (hlocal' : u.isLocal = true)
    (ht : t.render imports speak = .ok text) (hu : u.render imports speak = .ok other)
    (hne : t ≠ u) : text ≠ other := by
  obtain ⟨hmet, rfl⟩ := render_eq_ok_iff.mp ht
  obtain ⟨hmet', rfl⟩ := render_eq_ok_iff.mp hu
  intro heq
  have hnil : Ends [] := by simp [Ends]
  have hlists : (t.text speak).toList ++ [] = (u.text speak).toList ++ [] := by rw [heq]
  exact hne (t.isUnique speak ⟨hlocal, hmet⟩ u [] [] ⟨hlocal', hmet'⟩ hnil hnil hlists).1

/-- A reference to a lifetime beside a reference that has one. -/
theorem texts_of_lifetime_references_differ :
    let t : Ty := .tuple [.ref .static]
    let u : Ty := .tuple [.staticRef (.named "r#fn" [.function [] .infer])]
    (t.isLocal = true ∧ u.isLocal = true) ∧
      (t.render {} Symbol.name = .ok "(&'static,)" ∧
        u.render {} Symbol.name = .ok "(&'static r#fn<fn() -> _>,)") ∧
      t ≠ u ∧ "(&'static,)" ≠ "(&'static r#fn<fn() -> _>,)" := by
  intro t u
  have hlocal : t.isLocal = true ∧ u.isLocal = true := ⟨rfl, rfl⟩
  have ht : t.render {} Symbol.name = .ok "(&'static,)" := by decide +kernel
  have hu : u.render {} Symbol.name = .ok "(&'static r#fn<fn() -> _>,)" := by decide +kernel
  have hne : t ≠ u := by
    intro heq
    injection heq with hitems
    injection hitems with hitem
    cases hitem
  exact ⟨hlocal, ⟨ht, hu⟩, hne, texts_of_local_types_differ hlocal.1 hlocal.2 ht hu hne⟩

end Ty

end Scaffold.Source
