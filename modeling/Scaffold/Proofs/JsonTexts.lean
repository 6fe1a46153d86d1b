import Scaffold.Proofs.JsonRoundTrip

/-!
The texts of a JSON tree. A grammar says which texts spell a tree, with blanks, escapes and
spellings of numbers as free as the format leaves them, with any depth and any size of numbers. The
reader finds the tree of every such text, unless the tree itself is too deep or has a number out of
range: whether it is read is up to the tree, not to the text.
-/

namespace Scaffold.Json

namespace Numeral

/-- The value that a numeral stands for, whether or not it can be held. -/
def meaning (n : Numeral) : Json :=
  let k : Int := Number.ofDecimal n.whole
  let k := if n.negative then -k else k
  if n.fraction.isNone && n.exponent.isNone && !(n.negative && k == 0) && Number.fitsWord k then
    .whole k
  else .decimal n.spelling

def fractionText : Option (List Char) → List Char
  | some ds => '.' :: ds
  | none => []

def exponentText : Option (Char × List Char × List Char) → List Char
  | some (e, sign, ds) => e :: sign ++ ds
  | none => []

theorem toList_spelling (n : Numeral) : n.spelling.toList =
    (if n.negative then ['-'] else []) ++ n.whole ++ fractionText n.fraction ++
      exponentText n.exponent := by
  rw [spelling, String.toList_ofList]
  rfl

end Numeral

/-- The digits at the head are what is gathered, and no digit follows them. -/
theorem digitsOf_spec (cs : List Char) :
    cs = (digitsOf cs).1 ++ (digitsOf cs).2 ∧ (∀ c ∈ (digitsOf cs).1, c.isDigit = true) ∧
      ∀ c ∈ (digitsOf cs).2.head?, c.isDigit = false := by
  refine ⟨List.takeWhile_append_dropWhile.symm, fun c hc => ?_, fun c hc => ?_⟩
  · exact List.mem_takeWhile_imp hc
  · have hstop := List.head?_dropWhile_not Char.isDigit cs
    rw [digitsOf] at hc
    rw [Option.mem_def.mp hc] at hstop
    simpa using hstop

theorem digitsOf_digits {ds : List Char} (hds : ∀ c ∈ ds, c.isDigit = true) :
    digitsOf ds = (ds, []) := by
  have happend := digitsOf_append hds (r := []) (by simp)
  rwa [List.append_nil] at happend

/-- An exponent is a letter, a sign that may be missing, and digits. -/
theorem exponentPart_eq_some {cs r : List Char} {e : Option (Char × List Char × List Char)}
    (h : exponentPart cs = some (e, r)) :
    cs = Numeral.exponentText e ++ r ∧ ∀ letter sign ds, e = some (letter, sign, ds) →
      (letter = 'e' ∨ letter = 'E') ∧ (sign = [] ∨ sign = ['+'] ∨ sign = ['-']) ∧
        ds ≠ [] ∧ ∀ c ∈ ds, c.isDigit = true := by
  cases cs with
  | nil =>
    obtain ⟨rfl, rfl⟩ : none = e ∧ [] = r := by simpa [exponentPart] using h
    exact ⟨rfl, by simp⟩
  | cons letter cs =>
    by_cases hletter : (letter == 'e' || letter == 'E') = true
    · obtain ⟨sign, rest, hsign, rfl, hrest⟩ : ∃ sign rest,
          (sign = [] ∨ sign = ['+'] ∨ sign = ['-']) ∧ cs = sign ++ rest ∧
          (if (digitsOf rest).1.isEmpty then none
            else some (some (letter, sign, (digitsOf rest).1), (digitsOf rest).2)) =
        some (e, r) := by
        simp only [exponentPart, hletter, if_true] at h
        split at h
        · exact ⟨['+'], _, by simp, rfl, h⟩
        · exact ⟨['-'], _, by simp, rfl, h⟩
        · exact ⟨[], _, by simp, rfl, h⟩
      obtain ⟨hrest', hdigits, -⟩ := digitsOf_spec rest
      by_cases hempty : (digitsOf rest).1.isEmpty = true
      · simp [hempty] at hrest
      · simp only [hempty, Bool.false_eq_true, if_false, Option.some.injEq, Prod.mk.injEq] at hrest
        obtain ⟨rfl, rfl⟩ := hrest
        refine ⟨?_, ?_⟩
        · simp [Numeral.exponentText, ← hrest']
        · rintro letter sign ds ⟨⟩
          exact ⟨by simpa using hletter, hsign, by simpa using hempty, hdigits⟩
    · obtain ⟨rfl, rfl⟩ : none = e ∧ letter :: cs = r := by simpa [exponentPart, hletter] using h
      exact ⟨rfl, by simp⟩

/-- An exponent that was found is found again where nothing follows it. -/
theorem exponentPart_exponentText {cs r : List Char} {e : Option (Char × List Char × List Char)}
    (h : exponentPart cs = some (e, r)) :
    exponentPart (Numeral.exponentText e) = some (e, []) ∧
      ∀ c ∈ (Numeral.exponentText e).head?, c.isDigit = false ∧ c ≠ '.' := by
  obtain ⟨-, hparts⟩ := exponentPart_eq_some h
  cases e with
  | none => exact ⟨rfl, by simp [Numeral.exponentText]⟩
  | some e =>
    obtain ⟨letter, sign, ds⟩ := e
    obtain ⟨hletter, hsign, hne, hds⟩ := hparts letter sign ds rfl
    obtain ⟨d, ds, rfl⟩ := List.exists_cons_of_ne_nil hne
    have hd : d ≠ '+' ∧ d ≠ '-' := by
      have hdigit := hds d List.mem_cons_self
      constructor <;> rintro rfl <;> exact absurd hdigit (by decide)
    have hdigits := digitsOf_digits hds
    refine ⟨?_, ?_⟩
    · rcases hletter with rfl | rfl <;> rcases hsign with rfl | rfl | rfl <;>
        simp [Numeral.exponentText, exponentPart, hdigits, hd]
    · rcases hletter with rfl | rfl <;> simp [Numeral.exponentText]

/-- A fraction that was found is found again in front of whatever may follow a fraction. -/
theorem fractionPart_eq_some {cs r : List Char} {f : Option (List Char)}
    (h : fractionPart cs = some (f, r)) :
    cs = Numeral.fractionText f ++ r ∧
      (∀ c ∈ (Numeral.fractionText f).head?, c = '.') ∧
      ∀ rest : List Char, (∀ c ∈ rest.head?, c.isDigit = false ∧ c ≠ '.') →
        fractionPart (Numeral.fractionText f ++ rest) = some (f, rest) := by
  unfold fractionPart at h
  split at h
  next point cs' =>
    obtain ⟨hcs, hdigits, -⟩ := digitsOf_spec cs'
    by_cases hempty : (digitsOf cs').1.isEmpty = true
    · simp [hempty] at h
    · simp only [hempty, Bool.false_eq_true, if_false, Option.some.injEq, Prod.mk.injEq] at h
      obtain ⟨rfl, rfl⟩ := h
      refine ⟨by simp [Numeral.fractionText, ← hcs], by simp [Numeral.fractionText], ?_⟩
      intro rest hrest
      have happend := digitsOf_append hdigits fun c hc => (hrest c hc).1
      simp [Numeral.fractionText, fractionPart, happend, hempty]
  next =>
    obtain ⟨rfl, rfl⟩ : none = f ∧ cs = r := by simpa using h
    refine ⟨rfl, by simp [Numeral.fractionText], fun rest hrest => ?_⟩
    cases rest with
    | nil => rfl
    | cons c rest =>
      have hpoint := (hrest c rfl).2
      rw [Numeral.fractionText, List.nil_append, fractionPart.eq_def]
      split
      next heq => exact absurd (List.cons.inj heq).1 hpoint
      next => rfl

/-- The numeral behind a sign. -/
def magnitude? (negative : Bool) (cs : List Char) : Option (Numeral × List Char) :=
  let (ds, r) := digitsOf cs
  if ds.isEmpty || (ds.head? == some '0' && ds.length != 1) then none
  else
    (fractionPart r).bind fun (fraction, r) => (exponentPart r).bind fun (exponent, r) =>
      some ({ negative, whole := ds, fraction, exponent }, r)

theorem numeral?_dash (cs : List Char) : numeral? ('-' :: cs) = magnitude? true cs := rfl

theorem numeral?_of_no_dash {cs : List Char} (h : ∀ t, cs ≠ '-' :: t) :
    numeral? cs = magnitude? false cs := by
  unfold numeral?
  split
  next negative behind hsign =>
    split at hsign
    next t => exact absurd rfl (h t)
    next =>
      obtain ⟨rfl, rfl⟩ := Prod.mk.inj hsign
      rfl

/-- The parts of a magnitude are what was read of it, and are read alone as the same ones. -/
theorem magnitude?_eq_some {negative : Bool} {cs r : List Char} {n : Numeral}
    (h : magnitude? negative cs = some (n, r)) :
    n.negative = negative ∧ (∃ d t, cs = d :: t ∧ d.isDigit = true) ∧
      ∃ spelled, n.spelling.toList = (if negative then ['-'] else []) ++ spelled ∧
        cs = spelled ++ r ∧ magnitude? negative spelled = some (n, []) := by
  obtain ⟨hcs, hdigits, -⟩ := digitsOf_spec cs
  rcases hhead : digitsOf cs with ⟨ds, rest⟩
  simp only [hhead] at hcs hdigits
  simp only [magnitude?, hhead] at h
  by_cases hwhole : (ds.isEmpty || (ds.head? == some '0' && ds.length != 1)) = true
  · simp [hwhole] at h
  · simp only [hwhole, Bool.false_eq_true, if_false, Option.bind_eq_some_iff, Option.some.injEq,
      Prod.mk.injEq, Prod.exists] at h
    obtain ⟨fraction, rest', hfraction, exponent, r, hexponent, rfl, rfl⟩ := h
    obtain ⟨hrest, hpoint, hfraction'⟩ := fractionPart_eq_some hfraction
    obtain ⟨hrest', -⟩ := exponentPart_eq_some hexponent
    obtain ⟨hexponent', hletter⟩ := exponentPart_exponentText hexponent
    have hstop : ∀ c ∈ (Numeral.fractionText fraction ++
        Numeral.exponentText exponent).head?, c.isDigit = false := by
      cases hf : Numeral.fractionText fraction with
      | nil => exact fun c hc => (hletter c hc).1
      | cons d t =>
        intro c hc
        rw [hf] at hpoint
        obtain rfl : d = c := by simpa using hc
        rw [hpoint d rfl]
        decide
    refine ⟨rfl, ?_, ds ++ (Numeral.fractionText fraction ++ Numeral.exponentText exponent),
      by simp [Numeral.toList_spelling], by rw [hcs, hrest, hrest']; simp, ?_⟩
    · cases ds with
      | nil => simp at hwhole
      | cons d ds => exact ⟨d, ds ++ rest, hcs, hdigits d List.mem_cons_self⟩
    · rw [magnitude?, digitsOf_append hdigits hstop]
      simp only [hwhole, Bool.false_eq_true, if_false, hfraction' _ hletter, hexponent',
        Option.bind_some]

/-- The spelling of a numeral is what was read of it, and is read alone as the same numeral. -/
theorem numeral?_eq_some {cs r : List Char} {n : Numeral} (h : numeral? cs = some (n, r)) :
    cs = n.spelling.toList ++ r ∧ numeral? n.spelling.toList = some (n, []) ∧
      ∃ c t, cs = c :: t ∧ (c = '-' ∨ c.isDigit = true) := by
  by_cases hdash : ∃ t, cs = '-' :: t
  · obtain ⟨t, rfl⟩ := hdash
    rw [numeral?_dash] at h
    obtain ⟨-, -, spelled, hspelling, ht, halone⟩ := magnitude?_eq_some h
    rw [hspelling]
    exact ⟨congrArg ('-' :: ·) ht, halone, '-', t, rfl, .inl rfl⟩
  · rw [numeral?_of_no_dash fun t ht => hdash ⟨t, ht⟩] at h
    obtain ⟨-, ⟨d, t, hd, hdigit⟩, spelled, hspelling, hcs, halone⟩ := magnitude?_eq_some h
    simp only [Bool.false_eq_true, if_false, List.nil_append] at hspelling
    have hspelled : ∀ t, spelled ≠ '-' :: t := fun t ht => hdash ⟨t ++ r, by rw [hcs, ht]; rfl⟩
    rw [hspelling, numeral?_of_no_dash hspelled]
    exact ⟨hcs, halone, d, t, hd, .inr hdigit⟩

/-- What a stretch of text may spell: a value, or what follows the bracket of a list or record. -/
inductive Part where
  | value (v : Json)
  | items (xs : List Json)
  | members (ms : List (String × Json))

/-- A part stands at the head of a text, and the rest of the text follows it. -/
inductive Spells : Part → List Char → List Char → Prop
  | null {cs rest} : skipSpace cs = 'n' :: 'u' :: 'l' :: 'l' :: rest → Spells (.value .null) cs rest
  | yes {cs rest} : skipSpace cs = 't' :: 'r' :: 'u' :: 'e' :: rest →
      Spells (.value (.flag true)) cs rest
  | no {cs rest} : skipSpace cs = 'f' :: 'a' :: 'l' :: 's' :: 'e' :: rest →
      Spells (.value (.flag false)) cs rest
  | number {cs rest n} : numeral? (skipSpace cs) = some (n, rest) →
      Spells (.value n.meaning) cs rest
  | text {cs inside rest s} : skipSpace cs = '"' :: inside → stringTail inside = some (s, rest) →
      Spells (.value (.text (String.ofList s))) cs rest
  | emptyList {cs inside rest} : skipSpace cs = '[' :: inside → skipSpace inside = ']' :: rest →
      Spells (.value (.list [])) cs rest
  | list {cs inside rest xs} : skipSpace cs = '[' :: inside → Spells (.items xs) inside rest →
      Spells (.value (.list xs)) cs rest
  | emptyRecord {cs inside rest} : skipSpace cs = '\x7b' :: inside →
      skipSpace inside = '\x7d' :: rest → Spells (.value (.record [])) cs rest
  | record {cs inside rest ms} : skipSpace cs = '\x7b' :: inside →
      Spells (.members ms) inside rest → Spells (.value (.record ms)) cs rest
  | lastItem {cs behind rest x} : Spells (.value x) cs behind → skipSpace behind = ']' :: rest →
      Spells (.items [x]) cs rest
  | item {cs behind next rest x xs} : Spells (.value x) cs behind →
      skipSpace behind = ',' :: next → Spells (.items xs) next rest →
      Spells (.items (x :: xs)) cs rest
  | lastMember {cs inside behind rest k x} : key cs = some (k, inside) →
      Spells (.value x) inside behind → skipSpace behind = '\x7d' :: rest →
      Spells (.members [(k, x)]) cs rest
  | member {cs inside behind next rest k x ms} : key cs = some (k, inside) →
      Spells (.value x) inside behind → skipSpace behind = ',' :: next →
      Spells (.members ms) next rest → Spells (.members ((k, x) :: ms)) cs rest

/-- The text is a spelling of the tree between blanks. -/
def IsTextOf (s : String) (t : Json) : Prop :=
  ∃ rest, Spells (.value t) s.toList rest ∧ skipSpace rest = []

/-- Whether a number that is not whole can be held. -/
def inRange (spelling : String) : Bool :=
  match numeral? spelling.toList with
  | some (n, _) => !n.isOutOfRange
  | none => false

/-- Whether a reader with room for so many open lists and records can hold the tree. -/
def fits : Nat → Json → Bool
  | _, .null => true
  | _, .flag _ => true
  | _, .whole _ => true
  | _, .text _ => true
  | _, .decimal s => inRange s
  | 0, .list _ => false
  | 0, .record _ => false
  | room + 1, .list xs => xs.all fun x => fits room x
  | room + 1, .record ms => ms.all fun m => fits room m.2

theorem length_skipSpace_le (cs : List Char) : (skipSpace cs).length ≤ cs.length :=
  (List.dropWhile_sublist _).length_le

theorem length_le_of_stringTail {cs r s : List Char} (h : stringTail cs = some (s, r)) :
    r.length ≤ cs.length := by
  -- Each character of the string takes one of the text or more, and the rest is read behind it.
  have hrest : ∀ {t s r : List Char} {f : List Char → List Char},
      ((stringTail t).bind fun p => some (f p.1, p.2)) = some (s, r) →
        ∃ s', stringTail t = some (s', r) := by
    intro t s r f h
    obtain ⟨⟨s', r'⟩, htail, hp⟩ := Option.bind_eq_some_iff.mp h
    obtain ⟨-, rfl⟩ : f s' = s ∧ r' = r := by simpa using hp
    exact ⟨s', htail⟩
  fun_induction stringTail cs generalizing s r with
  | case1 => simp at h
  | case2 inside =>
    obtain ⟨-, rfl⟩ : [] = s ∧ inside = r := by simpa using h
    simp
  | case3 a b c d inside ih2 ih1 =>
    obtain ⟨n, -, h⟩ := Option.bind_eq_some_iff.mp h
    dsimp only at h
    split_ifs at h
    · split at h
      next e f g k inside =>
        obtain ⟨m, -, h⟩ := Option.bind_eq_some_iff.mp h
        split_ifs at h
        obtain ⟨s', htail⟩ := hrest h
        have hle := ih2 htail
        simp only [List.length_cons]
        omega
      next => simp at h
    · obtain ⟨s', htail⟩ := hrest h
      have hle := ih1 htail
      simp only [List.length_cons]
      omega
  | case4 c inside _ ih =>
    obtain ⟨e, -, h⟩ := Option.bind_eq_some_iff.mp h
    obtain ⟨s', htail⟩ := hrest h
    have hle := ih htail
    simp only [List.length_cons]
    omega
  | case5 => simp at h
  | case6 c inside _ _ _ _ ih =>
    obtain ⟨s', htail⟩ := hrest h
    have hle := ih htail
    simp only [List.length_cons]
    omega

theorem length_le_of_key {cs r : List Char} {k : String} (h : key cs = some (k, r)) :
    r.length ≤ cs.length := by
  have hspace := length_skipSpace_le cs
  unfold key at h
  split at h
  next inside heq =>
    obtain ⟨⟨s, behind⟩, htail, h⟩ := Option.bind_eq_some_iff.mp h
    have hinside := length_le_of_stringTail htail
    have hbehind := length_skipSpace_le behind
    dsimp only at h
    split at h
    next rest heq' =>
      obtain ⟨-, rfl⟩ : String.ofList s = k ∧ rest = r := by simpa using h
      rw [heq, List.length_cons] at hspace
      rw [heq', List.length_cons] at hbehind
      omega
    next => simp at h
  next => simp at h

theorem length_lt_of_skipSpace {cs inside : List Char} {c : Char}
    (h : skipSpace cs = c :: inside) : inside.length < cs.length := by
  have hspace := length_skipSpace_le cs
  rw [h, List.length_cons] at hspace
  omega

theorem length_le_of_numeral? {cs r : List Char} {n : Numeral} (h : numeral? cs = some (n, r)) :
    r.length ≤ cs.length := by
  obtain ⟨hcs, -, -⟩ := numeral?_eq_some h
  rw [hcs, List.length_append]
  omega

theorem Spells.length_le {p : Part} {cs r : List Char} (h : Spells p cs r) :
    r.length ≤ cs.length := by
  induction h with
  | null hcs | yes hcs | no hcs =>
    have hinside := length_lt_of_skipSpace hcs
    simp only [List.length_cons] at hinside
    omega
  | number hn => exact (length_le_of_numeral? hn).trans (length_skipSpace_le _)
  | text hcs htail => exact (length_le_of_stringTail htail).trans (length_lt_of_skipSpace hcs).le
  | emptyList hcs hclose | emptyRecord hcs hclose =>
    exact ((length_lt_of_skipSpace hclose).trans (length_lt_of_skipSpace hcs)).le
  | list hcs _ ih | record hcs _ ih => exact ih.trans (length_lt_of_skipSpace hcs).le
  | lastItem _ hclose ih => exact (length_lt_of_skipSpace hclose).le.trans ih
  | item _ hcomma _ ih ih' => exact ih'.trans ((length_lt_of_skipSpace hcomma).le.trans ih)
  | lastMember hkey _ hclose ih =>
    exact (length_lt_of_skipSpace hclose).le.trans (ih.trans (length_le_of_key hkey))
  | member hkey _ hcomma _ ih ih' =>
    exact ih'.trans ((length_lt_of_skipSpace hcomma).le.trans (ih.trans (length_le_of_key hkey)))

/-- The character that closes what the part is about. -/
def Part.closing : Part → Char
  | .members _ => '\x7d'
  | _ => ']'

/-- No part starts with the character that would close it. -/
theorem Spells.head_ne_closing {p : Part} {cs r : List Char} (h : Spells p cs r) :
    (skipSpace cs).head? ≠ some p.closing := by
  induction h with
  | number hn =>
    obtain ⟨-, -, c, t, hcs, hc⟩ := numeral?_eq_some hn
    intro hclosing
    obtain rfl : c = ']' := by simpa [hcs, Part.closing] using hclosing
    exact absurd hc (by decide)
  | lastItem _ _ ih => exact ih
  | item _ _ _ ih => exact ih
  | lastMember hkey | member hkey =>
    unfold key at hkey
    split at hkey
    next heq => simp [heq, Part.closing]
    next => simp at hkey
  | null hcs | yes hcs | no hcs | text hcs | emptyList hcs | list hcs | emptyRecord hcs
    | record hcs => simp [hcs, Part.closing]

/-- A number is held when it is whole or in range. -/
theorem Numeral.value?_eq {n : Numeral} (h : numeral? n.spelling.toList = some (n, []))
    (room : Nat) : n.value? = if fits room n.meaning then some n.meaning else none := by
  unfold value? meaning
  dsimp only
  split_ifs <;> simp_all [fits, inRange]

theorem value_eq_number {cs r : List Char} {n : Numeral} (h : numeral? (skipSpace cs) = some (n, r))
    (fuel room : Nat) : value (fuel + 1) room cs = number (skipSpace cs) := by
  obtain ⟨-, -, c, t, hcs, hc⟩ := numeral?_eq_some h
  rw [value, hcs]
  split
  case h_7 => rfl
  all_goals
    next heq =>
      rw [(List.cons.inj heq).1] at hc
      exact absurd hc (by decide)

/-- The reader finds the part at the head of the text if it fits the room, and fails if not. -/
def Part.IsReadAt (cs rest : List Char) : Part → Prop
  | .value v => ∀ fuel room, 2 * cs.length ≤ fuel →
      Json.value fuel room cs = if fits room v then some (v, rest) else none
  | .items xs => ∀ fuel room, 2 * cs.length < fuel →
      Json.items fuel room cs = if xs.all (fits room) then some (xs, rest) else none
  | .members ms => ∀ fuel room, 2 * cs.length < fuel →
      Json.members fuel room cs =
        if ms.all fun m => fits room m.2 then some (ms, rest) else none

/-- A character that was read is worth two steps of the reader. -/
theorem exists_fuel {cs inside : List Char} {c : Char} (h : skipSpace cs = c :: inside) {fuel : Nat}
    (hfuel : 2 * cs.length ≤ fuel) : ∃ k, fuel = k + 1 ∧ 2 * inside.length < k := by
  have hlt := length_lt_of_skipSpace h
  obtain ⟨k, rfl⟩ := Nat.exists_eq_add_one_of_ne_zero (by omega : fuel ≠ 0)
  exact ⟨k, rfl, by omega⟩

theorem value_of_bracket {cs inside : List Char} (hcs : skipSpace cs = '[' :: inside)
    (h : (skipSpace inside).head? ≠ some ']') (fuel room : Nat) :
    value (fuel + 1) (room + 1) cs = (items fuel room inside).map fun p => (.list p.1, p.2) := by
  rw [← value_skipSpace, hcs, value_bracket _ _ h]

theorem value_of_brace {cs inside : List Char} (hcs : skipSpace cs = '\x7b' :: inside)
    (h : (skipSpace inside).head? ≠ some '\x7d') (fuel room : Nat) :
    value (fuel + 1) (room + 1) cs =
      (members fuel room inside).map fun p => (.record p.1, p.2) := by
  rw [← value_skipSpace, hcs, value_brace _ _ h]

/-- By induction on the spelling. A value is worth two steps for each character of the text and a
list of them one more, so that each part gets what it needs. -/
theorem Spells.isReadAt {p : Part} {cs rest : List Char} (h : Spells p cs rest) :
    p.IsReadAt cs rest := by
  induction h with
  | null hcs | yes hcs | no hcs =>
    intro fuel room hfuel
    obtain ⟨fuel, rfl, -⟩ := exists_fuel hcs hfuel
    simp [value, hcs, fits]
  | number hn =>
    intro fuel room hfuel
    obtain ⟨-, halone, c, t, hcs, -⟩ := numeral?_eq_some hn
    obtain ⟨fuel, rfl, -⟩ := exists_fuel hcs hfuel
    rw [value_eq_number hn, Json.number, hn]
    simp only [Option.bind_eq_bind, Option.bind_some, Numeral.value?_eq halone room]
    split <;> rfl
  | text hcs htail =>
    intro fuel room hfuel
    obtain ⟨fuel, rfl, -⟩ := exists_fuel hcs hfuel
    simp [value, hcs, htail, fits]
  | emptyList hcs hclose | emptyRecord hcs hclose =>
    intro fuel room hfuel
    obtain ⟨fuel, rfl, -⟩ := exists_fuel hcs hfuel
    cases room <;> simp [value, hcs, hclose, fits]
  | list hcs hspells ih =>
    intro fuel room hfuel
    obtain ⟨fuel, rfl, hinside⟩ := exists_fuel hcs hfuel
    cases room with
    | zero => simp [value, hcs, fits]
    | succ room =>
      rw [value_of_bracket hcs hspells.head_ne_closing, ih fuel room hinside, fits]
      split <;> rfl
  | record hcs hspells ih =>
    intro fuel room hfuel
    obtain ⟨fuel, rfl, hinside⟩ := exists_fuel hcs hfuel
    cases room with
    | zero => simp [value, hcs, fits]
    | succ room =>
      rw [value_of_brace hcs hspells.head_ne_closing, ih fuel room hinside, fits]
      split <;> rfl
  | @lastItem cs behind rest x hspells hclose ih =>
    intro fuel room hfuel
    obtain ⟨fuel, rfl⟩ := Nat.exists_eq_add_one_of_ne_zero (by omega : fuel ≠ 0)
    rw [Json.items, ih fuel room (by omega)]
    by_cases hx : fits room x = true <;> simp [hx, hclose]
  | @item cs behind next rest x xs hspells hcomma _ ih ih' =>
    intro fuel room hfuel
    obtain ⟨fuel, rfl⟩ := Nat.exists_eq_add_one_of_ne_zero (by omega : fuel ≠ 0)
    have hle := hspells.length_le
    have hlt := length_lt_of_skipSpace hcomma
    rw [Json.items, ih fuel room (by omega)]
    by_cases hx : fits room x = true
    · simp only [hx, if_true, Option.bind_eq_bind, Option.bind_some, hcomma,
        ih' fuel room (by omega), List.all_cons, Bool.true_and]
      split <;> rfl
    · simp [hx]
  | @lastMember cs inside behind rest k x hkey _ hclose ih =>
    intro fuel room hfuel
    obtain ⟨fuel, rfl⟩ := Nat.exists_eq_add_one_of_ne_zero (by omega : fuel ≠ 0)
    have hle := length_le_of_key hkey
    simp only [Json.members, hkey, Option.bind_eq_bind, Option.bind_some,
      ih fuel room (by omega)]
    by_cases hx : fits room x = true <;> simp [hx, hclose]
  | @member cs inside behind next rest k x ms hkey hspells hcomma _ ih ih' =>
    intro fuel room hfuel
    obtain ⟨fuel, rfl⟩ := Nat.exists_eq_add_one_of_ne_zero (by omega : fuel ≠ 0)
    have hle := length_le_of_key hkey
    have hle' := hspells.length_le
    have hlt := length_lt_of_skipSpace hcomma
    simp only [Json.members, hkey, Option.bind_eq_bind, Option.bind_some,
      ih fuel room (by omega)]
    by_cases hx : fits room x = true
    · simp only [hx, if_true, Option.bind_some, hcomma, ih' fuel room (by omega), List.all_cons,
        Bool.true_and]
      split <;> rfl
    · simp [hx]

/-- A text of a tree is read as that tree if it fits, and is refused if not. -/
theorem IsTextOf.parse?_eq {s : String} {t : Json} (h : IsTextOf s t) :
    parse? s = if fits nestingLimit t then some t else none := by
  obtain ⟨rest, hspells, hrest⟩ := h
  have hvalue := hspells.isReadAt (2 * s.toList.length + 2) nestingLimit (by omega)
  rw [parse?]
  simp only [hvalue]
  split
  · simp [hrest]
  · rfl

/-- The reader has found parts that are spelled where it found them. -/
structure FindsSpelled (fuel : Nat) : Prop where
  value : ∀ room cs v rest, Json.value fuel room cs = some (v, rest) → Spells (.value v) cs rest
  items : ∀ room cs xs rest, Json.items fuel room cs = some (xs, rest) → Spells (.items xs) cs rest
  members : ∀ room cs ms rest, Json.members fuel room cs = some (ms, rest) →
    Spells (.members ms) cs rest

theorem spells_of_number {cs rest : List Char} {v : Json}
    (h : number (skipSpace cs) = some (v, rest)) : Spells (.value v) cs rest := by
  obtain ⟨⟨n, r⟩, hn, h⟩ := Option.bind_eq_some_iff.mp h
  obtain ⟨v', hv, h⟩ := Option.bind_eq_some_iff.mp h
  obtain ⟨rfl, rfl⟩ : v' = v ∧ r = rest := by simpa using h
  obtain ⟨-, halone, -⟩ := numeral?_eq_some hn
  rw [Numeral.value?_eq halone nestingLimit] at hv
  split at hv
  · obtain rfl : n.meaning = v' := by simpa using hv
    exact .number hn
  · simp at hv

theorem FindsSpelled.value_succ {fuel : Nat} (hf : FindsSpelled fuel) {room : Nat}
    {cs rest : List Char} {v : Json} (h : Json.value (fuel + 1) room cs = some (v, rest)) :
    Spells (.value v) cs rest := by
  unfold Json.value at h
  split at h
  next inside hcs =>
    obtain ⟨⟨s, r⟩, htail, h⟩ := Option.bind_eq_some_iff.mp h
    obtain ⟨rfl, rfl⟩ : .text (String.ofList s) = v ∧ r = rest := by simpa using h
    exact .text hcs htail
  next inside hcs =>
    cases room with
    | zero => simp at h
    | succ room =>
      dsimp only at h
      split at h
      next r hclose =>
        obtain ⟨rfl, rfl⟩ : .list [] = v ∧ r = rest := by simpa using h
        exact .emptyList hcs hclose
      next =>
        obtain ⟨⟨xs, r⟩, hitems, h⟩ := Option.bind_eq_some_iff.mp h
        obtain ⟨rfl, rfl⟩ : .list xs = v ∧ r = rest := by simpa using h
        exact .list hcs (hf.items _ _ _ _ hitems)
  next inside hcs =>
    cases room with
    | zero => simp at h
    | succ room =>
      dsimp only at h
      split at h
      next r hclose =>
        obtain ⟨rfl, rfl⟩ : .record [] = v ∧ r = rest := by simpa using h
        exact .emptyRecord hcs hclose
      next =>
        obtain ⟨⟨ms, r⟩, hmembers, h⟩ := Option.bind_eq_some_iff.mp h
        obtain ⟨rfl, rfl⟩ : .record ms = v ∧ r = rest := by simpa using h
        exact .record hcs (hf.members _ _ _ _ hmembers)
  next r hcs =>
    obtain ⟨rfl, rfl⟩ : .flag true = v ∧ r = rest := by simpa using h
    exact .yes hcs
  next r hcs =>
    obtain ⟨rfl, rfl⟩ : .flag false = v ∧ r = rest := by simpa using h
    exact .no hcs
  next r hcs =>
    obtain ⟨rfl, rfl⟩ : .null = v ∧ r = rest := by simpa using h
    exact .null hcs
  next => exact spells_of_number h

theorem FindsSpelled.items_succ {fuel : Nat} (hf : FindsSpelled fuel) {room : Nat}
    {cs rest : List Char} {xs : List Json} (h : Json.items (fuel + 1) room cs = some (xs, rest)) :
    Spells (.items xs) cs rest := by
  unfold Json.items at h
  obtain ⟨⟨x, behind⟩, hvalue, h⟩ := Option.bind_eq_some_iff.mp h
  have hx := hf.value _ _ _ _ hvalue
  dsimp only at h
  split at h
  next next hcomma =>
    obtain ⟨⟨xs', r⟩, hitems, h⟩ := Option.bind_eq_some_iff.mp h
    obtain ⟨rfl, rfl⟩ : x :: xs' = xs ∧ r = rest := by simpa using h
    exact .item hx hcomma (hf.items _ _ _ _ hitems)
  next r hclose =>
    obtain ⟨rfl, rfl⟩ : [x] = xs ∧ r = rest := by simpa using h
    exact .lastItem hx hclose
  next => simp at h

theorem FindsSpelled.members_succ {fuel : Nat} (hf : FindsSpelled fuel) {room : Nat}
    {cs rest : List Char} {ms : List (String × Json)}
    (h : Json.members (fuel + 1) room cs = some (ms, rest)) : Spells (.members ms) cs rest := by
  unfold Json.members at h
  obtain ⟨⟨k, inside⟩, hkey, h⟩ := Option.bind_eq_some_iff.mp h
  obtain ⟨⟨x, behind⟩, hvalue, h⟩ := Option.bind_eq_some_iff.mp h
  have hx := hf.value _ _ _ _ hvalue
  dsimp only at h
  split at h
  next next hcomma =>
    obtain ⟨⟨ms', r⟩, hmembers, h⟩ := Option.bind_eq_some_iff.mp h
    obtain ⟨rfl, rfl⟩ : (k, x) :: ms' = ms ∧ r = rest := by simpa using h
    exact .member hkey hx hcomma (hf.members _ _ _ _ hmembers)
  next r hclose =>
    obtain ⟨rfl, rfl⟩ : [(k, x)] = ms ∧ r = rest := by simpa using h
    exact .lastMember hkey hx hclose
  next => simp at h

theorem findsSpelled (fuel : Nat) : FindsSpelled fuel := by
  induction fuel with
  | zero =>
    exact ⟨fun _ _ _ _ h => by simp [value] at h, fun _ _ _ _ h => by simp [items] at h,
      fun _ _ _ _ h => by simp [members] at h⟩
  | succ fuel ih =>
    exact ⟨fun _ _ _ _ h => ih.value_succ h, fun _ _ _ _ h => ih.items_succ h,
      fun _ _ _ _ h => ih.members_succ h⟩

/-- The reader gives a tree exactly for the texts of that tree, as long as it fits. -/
theorem parse?_eq_some_iff (s : String) (t : Json) :
    parse? s = some t ↔ IsTextOf s t ∧ fits nestingLimit t = true := by
  constructor
  · intro h
    obtain ⟨⟨v, rest⟩, hvalue, hv⟩ := Option.bind_eq_some_iff.mp h
    dsimp only at hv
    split at hv
    next hrest =>
      obtain rfl : v = t := by simpa using hv
      have hs : IsTextOf s v :=
        ⟨rest, (findsSpelled _).value _ _ _ _ hvalue, List.isEmpty_iff.mp hrest⟩
      refine ⟨hs, ?_⟩
      by_contra hfits
      rw [hs.parse?_eq, if_neg hfits] at h
      exact absurd h (by simp)
    next => simp at hv
  · rintro ⟨hs, hfits⟩
    rw [hs.parse?_eq, if_pos hfits]

/-- The text that is written of a document is one of the texts of its tree. -/
theorem isTextOf_toJson {x : Document} (h : Fits nestingLimit x) :
    IsTextOf x.toJson (ofDocument x) :=
  ((parse?_eq_some_iff _ _).mp (parse?_toJson h)).1

end Scaffold.Json
