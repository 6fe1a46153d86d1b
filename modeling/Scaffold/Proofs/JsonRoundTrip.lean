import Mathlib.Data.List.DropRight
import Scaffold.Proofs.Numerals
import Scaffold.Proofs.ReadBack

/-!
JSON is read back as it was written. The reader finds each value of a written document where the
writer put it, whatever follows, and all values together are the document again; so a descriptor is
its own image under writing and reading.
-/

namespace Scaffold

namespace Json

/-- A character that is not escaped stands for itself. -/
theorem stringTail_cons {c : Char} (hquote : c ≠ '"') (hback : c ≠ '\\') (hc : 32 ≤ c.toNat)
    (r : List Char) : stringTail (c :: r) = (stringTail r).map fun p => (c :: p.1, p.2) := by
  have hplain : (c.toNat < 32 || c == '\\') = false := by
    simp [hback]
    omega
  rw [stringTail.eq_def]
  split
  case h_1 => contradiction
  case h_2 h => exact absurd (List.cons.inj h).1 hquote
  case h_3 h => exact absurd (List.cons.inj h).1 hback
  case h_4 h => exact absurd (List.cons.inj h).1 hback
  case h_5 h =>
    obtain ⟨rfl, rfl⟩ := List.cons.inj h
    rw [hplain]
    cases stringTail r <;> rfl

/-- A code of four digits that is no surrogate stands for its character. -/
theorem stringTail_code {c : Char} (hc : c.toNat < 32) (r : List Char) :
    stringTail ('\\' :: 'u' :: Number.hexPadded Number.lowerDigit 4 c.toNat ++ r) =
      (stringTail r).map fun p => (c :: p.1, p.2) := by
  have hvalue : Number.digits? 16 (Number.hexPadded Number.lowerDigit 4 c.toNat) = some c.toNat :=
    Number.digits?_hexPadded Number.digit?_lowerDigit (by decide) (Nat.lt_trans hc (by decide))
  obtain ⟨x, y, z, w, hcode⟩ :=
    List.length_eq_four.mp (Number.length_hexPadded Number.lowerDigit 4 c.toNat)
  rw [hcode] at hvalue ⊢
  have htrailing : isTrailing c.toNat = false := by
    simp [isTrailing]
    omega
  have hleading : isLeading c.toNat = false := by
    simp [isLeading]
    omega
  simp only [List.cons_append, List.nil_append, stringTail, hex4?, hvalue, htrailing, hleading,
    Option.bind_eq_bind, Option.bind_some, Char.ofNat_toNat]
  cases stringTail r <;> rfl

theorem stringTail_escape (c : Char) (r : List Char) :
    stringTail (escape c ++ r) = (stringTail r).map fun p => (c :: p.1, p.2) := by
  unfold escape
  split
  case h_8 hquote hback _ _ _ _ _ =>
    by_cases hc : c.toNat < 32
    · rw [if_pos hc, stringTail_code hc]
    · rw [if_neg hc, List.singleton_append, stringTail_cons hquote hback (by omega)]
  all_goals
    simp [stringTail, shortEscape?]
    cases stringTail r <;> rfl

theorem stringTail_flatMap_escape (cs r : List Char) :
    stringTail (cs.flatMap escape ++ '"' :: r) = some (cs, r) := by
  induction cs with
  | nil => rfl
  | cons c cs ih =>
    rw [List.flatMap_cons, List.append_assoc, stringTail_escape, ih]
    rfl

theorem quotedChars_append (s : String) (r : List Char) :
    quotedChars s ++ r = '"' :: (s.toList.flatMap escape ++ '"' :: r) := by
  simp [quotedChars]

/-- What follows a written value: nothing, a comma or a line break. -/
def Ends (r : List Char) : Prop := ∀ c ∈ r.head?, c = ',' ∨ c = '\n'

theorem digitsOf_append {ds r : List Char} (hds : ∀ c ∈ ds, c.isDigit = true)
    (hr : ∀ c ∈ r.head?, c.isDigit = false) : digitsOf (ds ++ r) = (ds, r) := by
  have hstop : r.takeWhile Char.isDigit = [] ∧ r.dropWhile Char.isDigit = r := by
    cases r with
    | nil => simp
    | cons c r => simp [hr c rfl]
  simp [digitsOf, List.takeWhile_append_of_pos hds, List.dropWhile_append_of_pos hds, hstop]

theorem Ends.isDigit_eq_false {r : List Char} (h : Ends r) : ∀ c ∈ r.head?, c.isDigit = false := by
  intro c hc
  rcases h c hc with rfl | rfl <;> decide

/-- The numeral of a whole number. -/
def numeral (n : Int) : Numeral :=
  { negative := decide (n < 0)
    whole := Number.decimal n.natAbs
    fraction := none
    exponent := none }

theorem numeral?_toString (n : Int) {r : List Char} (hr : Ends r) :
    numeral? ((toString n).toList ++ r) = some (numeral n, r) := by
  have hdigits : digitsOf (Number.decimal n.natAbs ++ r) = (Number.decimal n.natAbs, r) :=
    digitsOf_append (fun c hc => Number.isDigit_of_mem_decimal hc) hr.isDigit_eq_false
  have hwhole : ((Number.decimal n.natAbs).isEmpty ||
      ((Number.decimal n.natAbs).head? == some '0' &&
        (Number.decimal n.natAbs).length != 1)) = false := by
    cases hd : Number.decimal n.natAbs with
    | nil => exact absurd hd (Number.decimal_ne_nil _)
    | cons d ds =>
      by_cases hzero : d = '0'
      · subst hzero
        simp [Number.decimal_eq_zero_cons hd]
      · simp [hzero]
  have hfraction : fractionPart r = some (none, r) := by
    cases r with
    | nil => rfl
    | cons c r => rcases hr c rfl with rfl | rfl <;> rfl
  have hexponent : exponentPart r = some (none, r) := by
    cases r with
    | nil => rfl
    | cons c r => rcases hr c rfl with rfl | rfl <;> rfl
  rw [Number.toList_toString]
  by_cases hn : n < 0
  · simp [numeral?, hn, hdigits, hwhole, hfraction, hexponent, numeral]
  · have hsign : ∀ cs, Number.decimal n.natAbs ++ r ≠ '-' :: cs := by
      obtain ⟨d, ds, hd, hdigit⟩ := Number.exists_decimal_eq_cons n.natAbs
      rw [hd]
      intro cs h
      rw [(List.cons.inj h).1] at hdigit
      exact absurd hdigit (by decide)
    simp [numeral?, hn, hdigits, hwhole, hfraction, hexponent, numeral]

theorem value?_numeral {n : Int} (hn : Number.fitsWord n) :
    (numeral n).value? = some (.whole n) := by
  have hk : (if decide (n < 0) = true then -(n.natAbs : Int) else (n.natAbs : Int)) = n := by
    by_cases hneg : n < 0
    · rw [if_pos (decide_eq_true hneg)]
      omega
    · rw [if_neg (by simp [hneg])]
      omega
  have hminus : (decide (n < 0) && n == 0) = false := by
    by_cases hzero : n = 0
    · subst hzero
      rfl
    · simp [hzero]
  simp only [Numeral.value?, numeral, Number.ofDecimal_decimal, hk, hminus, hn, Option.isNone_none,
    Bool.not_false, Bool.and_self, if_true]

theorem number_toString {n : Int} (hn : Number.fitsWord n) {r : List Char} (hr : Ends r) :
    number ((toString n).toList ++ r) = some (.whole n, r) := by
  rw [number, numeral?_toString n hr, Option.bind_eq_bind, Option.bind_some]
  simp only [value?_numeral hn, Option.bind_eq_bind, Option.bind_some]

/-- The value that a document becomes. -/
def ofDocument : Document → Json
  | .text s => .text s
  | .flag b => .flag b
  | .number n => .whole n
  | .list xs => .list (xs.map ofDocument)
  | .record ms => .record (ms.map fun m => (m.1, ofDocument m.2))
decreasing_by
  · decreasing_tactic
  · exact Document.sizeOf_lt_record ‹m ∈ ms›

/-- The reader can hold the document: its numbers fit 64 bits, and it opens no more lists and
records inside each other than there is room for. -/
def Fits : Nat → Document → Prop
  | _, .text _ => True
  | _, .flag _ => True
  | _, .number n => Number.fitsWord n = true
  | 0, .list _ => False
  | 0, .record _ => False
  | room + 1, .list xs => ∀ x ∈ xs, Fits room x
  | room + 1, .record ms => ∀ m ∈ ms, Fits room m.2

theorem skipSpace_newline (level : Nat) (r : List Char) :
    skipSpace (newline level ++ r) = skipSpace r := by
  have hspace : ∀ c ∈ newline level, isSpace c = true := by
    intro c hc
    rcases List.mem_cons.mp hc with rfl | hc
    · decide
    · rw [List.eq_of_mem_replicate hc]
      decide
  exact List.dropWhile_append_of_pos hspace

theorem skipSpace_skipSpace (r : List Char) : skipSpace (skipSpace r) = skipSpace r :=
  List.dropWhile_idempotent isSpace r

theorem skipSpace_blank (r : List Char) : skipSpace (' ' :: r) = skipSpace r := rfl

theorem skipSpace_cons {c : Char} (hc : isSpace c = false) (r : List Char) :
    skipSpace (c :: r) = c :: r := by
  simp [skipSpace, hc]

/-- A written value starts with a character of its own, neither blank nor closing. -/
theorem exists_write_eq_cons (level : Nat) (x : Document) :
    ∃ c cs, write level x = c :: cs ∧ isSpace c = false ∧ c ≠ ']' ∧ c ≠ '}' := by
  cases x with
  | text s => exact ⟨_, _, rfl, by decide⟩
  | flag b => cases b <;> exact ⟨_, _, rfl, by decide⟩
  | number n =>
    obtain ⟨d, ds, hd, hdigit⟩ := Number.exists_decimal_eq_cons n.natAbs
    rw [write, Number.toList_toString]
    split
    · exact ⟨_, _, rfl, by decide⟩
    · have hdigits : ∀ c ∈ Number.decimalDigits, isSpace c = false ∧ c ≠ ']' ∧ c ≠ '\x7d' := by
        simp [Number.decimalDigits, isSpace]
      exact ⟨d, ds, hd, hdigits d (Number.mem_decimalDigits hdigit)⟩
  | list xs => cases xs <;> exact ⟨_, _, rfl, by decide⟩
  | record ms => cases ms <;> exact ⟨_, _, rfl, by decide⟩

theorem skipSpace_write (level : Nat) (x : Document) (r : List Char) :
    skipSpace (write level x ++ r) = write level x ++ r := by
  obtain ⟨c, cs, hx, hspace, -⟩ := exists_write_eq_cons level x
  rw [hx, List.cons_append, skipSpace_cons hspace]

theorem value_skipSpace (fuel room : Nat) (cs : List Char) :
    value fuel room (skipSpace cs) = value fuel room cs := by
  cases fuel with
  | zero => rfl
  | succ fuel => simp only [value, skipSpace_skipSpace]

theorem items_skipSpace (fuel room : Nat) (cs : List Char) :
    items fuel room (skipSpace cs) = items fuel room cs := by
  cases fuel with
  | zero => rfl
  | succ fuel => simp only [items, value_skipSpace]

theorem key_skipSpace (cs : List Char) : key (skipSpace cs) = key cs := by
  simp only [key, skipSpace_skipSpace]

theorem members_skipSpace (fuel room : Nat) (cs : List Char) :
    members fuel room (skipSpace cs) = members fuel room cs := by
  cases fuel with
  | zero => rfl
  | succ fuel => simp only [members, key_skipSpace]

theorem value_bracket (fuel room : Nat) {r : List Char} (h : (skipSpace r).head? ≠ some ']') :
    value (fuel + 1) (room + 1) ('[' :: r) =
      (items fuel room r).map fun p => (.list p.1, p.2) := by
  simp only [value, skipSpace_cons (c := '[') (by decide)]
  split
  next heq => simp [heq] at h
  next => cases items fuel room r <;> rfl

theorem value_brace (fuel room : Nat) {r : List Char} (h : (skipSpace r).head? ≠ some '\x7d') :
    value (fuel + 1) (room + 1) ('\x7b' :: r) =
      (members fuel room r).map fun p => (.record p.1, p.2) := by
  simp only [value, skipSpace_cons (c := '\x7b') (by decide)]
  split
  next heq => simp [heq] at h
  next => cases members fuel room r <;> rfl

theorem value_number {n : Int} (fuel room : Nat) (hn : Number.fitsWord n) {r : List Char}
    (hr : Ends r) : value (fuel + 1) room ((toString n).toList ++ r) = some (.whole n, r) := by
  have hnumber := number_toString hn hr
  obtain ⟨c, cs, hx, hc⟩ :
      ∃ c cs, (toString n).toList = c :: cs ∧ (c = '-' ∨ c.isDigit = true) := by
    obtain ⟨d, ds, hd, hdigit⟩ := Number.exists_decimal_eq_cons n.natAbs
    rw [Number.toList_toString]
    split
    · exact ⟨'-', _, rfl, .inl rfl⟩
    · exact ⟨d, ds, hd, .inr hdigit⟩
  have hspace : isSpace c = false := by
    rcases hc with rfl | hdigit
    · decide
    · have hdigits : ∀ c ∈ Number.decimalDigits, isSpace c = false := by
        simp [Number.decimalDigits, isSpace]
      exact hdigits c (Number.mem_decimalDigits hdigit)
  rw [hx, List.cons_append] at hnumber ⊢
  rw [value, skipSpace_cons hspace]
  split
  case h_7 => exact hnumber
  all_goals
    next heq =>
      rw [(List.cons.inj heq).1] at hc
      exact absurd hc (by decide)

/-- Every document that fits the room is read back, in front of whatever ends it. -/
def ReadsBack (room : Nat) : Prop :=
  ∀ fuel level x r, Fits room x → 2 * (write level x).length ≤ fuel → Ends r →
    value fuel room (write level x ++ r) = some (ofDocument x, r)

theorem ends_newline (level : Nat) (r : List Char) : Ends (newline level ++ r) := by
  simp [Ends, newline]

theorem ends_comma (r : List Char) : Ends (',' :: r) := by simp [Ends]

/-- The items of a list are read back up to its end. -/
theorem ReadsBack.items {room : Nat} (h : ReadsBack room) (level outer : Nat) (xs : List Document)
    (fuel : Nat) (x : Document) (r : List Char) (hfits : ∀ y ∈ x :: xs, Fits room y)
    (hfuel : 2 * ((write level x).length + (writeItems level xs).length) ≤ fuel) :
    items (fuel + 1) room (write level x ++ (writeItems level xs ++ (newline outer ++ ']' :: r))) =
      some ((x :: xs).map ofDocument, r) := by
  have hx := fun r => h fuel level x r (hfits x List.mem_cons_self) (by omega)
  induction xs generalizing x fuel with
  | nil =>
    rw [Json.items, writeItems, List.nil_append, hx _ (ends_newline outer _)]
    simp [skipSpace_newline, skipSpace_cons (c := ']') (by decide)]
  | cons y ys ih =>
    simp only [writeItems, List.cons_append, List.append_assoc, List.length_cons,
      List.length_append] at hfuel ⊢
    obtain ⟨fuel, rfl⟩ := Nat.exists_eq_add_one_of_ne_zero (by omega : fuel ≠ 0)
    have hfits' : ∀ z ∈ y :: ys, Fits room z := fun z hz => hfits z (List.mem_cons_of_mem x hz)
    have hrest := ih fuel y hfits' (by omega) fun r =>
      h fuel level y r (hfits' y List.mem_cons_self) (by omega)
    rw [← skipSpace_write, ← skipSpace_newline level, items_skipSpace] at hrest
    rw [Json.items, hx _ (ends_comma _)]
    simp [skipSpace_cons (c := ',') (by decide), hrest]

theorem key_quotedChars (s : String) (r : List Char) :
    key (quotedChars s ++ ':' :: r) = some (s, r) := by
  rw [quotedChars_append, key, skipSpace_cons (by decide)]
  simp [stringTail_flatMap_escape, skipSpace_cons (c := ':') (by decide)]

theorem skipSpace_writeMember (level : Nat) (m : String × Document) (r : List Char) :
    skipSpace (writeMember level m ++ r) = writeMember level m ++ r := by
  rw [writeMember, List.append_assoc, List.append_assoc, quotedChars_append,
    skipSpace_cons (by decide)]

/-- A member is read back as far as its value; what follows decides whether there are more. -/
theorem ReadsBack.member {room : Nat} (h : ReadsBack room) (level fuel : Nat)
    (m : String × Document) (hm : Fits room m.2) (hfuel : 2 * (writeMember level m).length ≤ fuel)
    {r : List Char} (hr : Ends r) :
    ∃ behind, key (writeMember level m ++ r) = some (m.1, behind) ∧
      value fuel room behind = some (ofDocument m.2, r) := by
  obtain ⟨k, x⟩ := m
  refine ⟨' ' :: (write level x ++ r), ?_, ?_⟩
  · simp only [writeMember, List.append_assoc, List.cons_append, List.nil_append, key_quotedChars]
  · rw [← value_skipSpace, skipSpace_blank, skipSpace_write]
    rw [writeMember, List.length_append] at hfuel
    exact h fuel level x r hm (by omega) hr

/-- The members of a record are read back up to its end. -/
theorem ReadsBack.members {room : Nat} (h : ReadsBack room) (level outer : Nat)
    (ms : List (String × Document)) (fuel : Nat) (m : String × Document) (r : List Char)
    (hfits : ∀ m' ∈ m :: ms, Fits room m'.2)
    (hfuel : 2 * ((writeMember level m).length + (writeMembers level ms).length) ≤ fuel) :
    members (fuel + 1) room (writeMember level m ++
        (writeMembers level ms ++ (newline outer ++ '\x7d' :: r))) =
      some ((m :: ms).map fun m => (m.1, ofDocument m.2), r) := by
  have hm := fun r => h.member level fuel m (hfits m List.mem_cons_self) (by omega) (r := r)
  induction ms generalizing m fuel with
  | nil =>
    obtain ⟨behind, hkey, hvalue⟩ := hm _ (ends_newline outer ('\x7d' :: r))
    rw [Json.members, writeMembers, List.nil_append, hkey]
    simp [hvalue, skipSpace_newline, skipSpace_cons (c := '\x7d') (by decide)]
  | cons m' ms ih =>
    simp only [writeMembers, List.cons_append, List.append_assoc, List.length_cons,
      List.length_append] at hfuel ⊢
    obtain ⟨fuel, rfl⟩ := Nat.exists_eq_add_one_of_ne_zero (by omega : fuel ≠ 0)
    have hfits' : ∀ n ∈ m' :: ms, Fits room n.2 := fun n hn => hfits n (List.mem_cons_of_mem m hn)
    have hrest := ih fuel m' hfits' (by omega) fun r =>
      h.member level fuel m' (hfits' m' List.mem_cons_self) (by omega)
    rw [← skipSpace_writeMember, ← skipSpace_newline level, members_skipSpace] at hrest
    obtain ⟨behind, hkey, hvalue⟩ := hm _ (ends_comma _)
    rw [Json.members, hkey]
    simp [hvalue, skipSpace_cons (c := ',') (by decide), hrest]

theorem value_text (fuel room : Nat) (s : String) (r : List Char) :
    value (fuel + 1) room (quotedChars s ++ r) = some (.text s, r) := by
  rw [quotedChars_append, value, skipSpace_cons (by decide)]
  simp [stringTail_flatMap_escape]

theorem value_flag (fuel room : Nat) (b : Bool) (r : List Char) :
    value (fuel + 1) room ((if b then "true".toList else "false".toList) ++ r) =
      some (.flag b, r) := by
  cases b <;> rfl

theorem ReadsBack.list {room : Nat} (h : ReadsBack room) (fuel level : Nat) (xs : List Document)
    (r : List Char) (hfits : ∀ x ∈ xs, Fits room x)
    (hfuel : 2 * (write level (.list xs)).length ≤ fuel + 1) :
    value (fuel + 1) (room + 1) (write level (.list xs) ++ r) =
      some (.list (xs.map ofDocument), r) := by
  cases xs with
  | nil => rfl
  | cons x xs =>
    simp only [write, List.length_cons, List.length_append, List.cons_append, List.append_assoc,
      List.nil_append] at hfuel ⊢
    obtain ⟨fuel, rfl⟩ := Nat.exists_eq_add_one_of_ne_zero (by omega : fuel ≠ 0)
    have hitems := h.items (level + 1) level xs fuel x r hfits (by omega)
    have hopen : (skipSpace (write (level + 1) x ++ (writeItems (level + 1) xs ++
        (newline level ++ ']' :: r)))).head? ≠ some ']' := by
      obtain ⟨c, cs, hx, -, hc, -⟩ := exists_write_eq_cons (level + 1) x
      rw [skipSpace_write, hx]
      simpa using hc
    rw [← skipSpace_write, ← skipSpace_newline (level + 1), items_skipSpace] at hitems
    rw [← skipSpace_newline (level + 1)] at hopen
    rw [value_bracket _ _ hopen, hitems]
    rfl

theorem ReadsBack.record {room : Nat} (h : ReadsBack room) (fuel level : Nat)
    (ms : List (String × Document)) (r : List Char) (hfits : ∀ m ∈ ms, Fits room m.2)
    (hfuel : 2 * (write level (.record ms)).length ≤ fuel + 1) :
    value (fuel + 1) (room + 1) (write level (.record ms) ++ r) =
      some (.record (ms.map fun m => (m.1, ofDocument m.2)), r) := by
  cases ms with
  | nil => rfl
  | cons m ms =>
    simp only [write, List.length_cons, List.length_append, List.cons_append, List.append_assoc,
      List.nil_append] at hfuel ⊢
    obtain ⟨fuel, rfl⟩ := Nat.exists_eq_add_one_of_ne_zero (by omega : fuel ≠ 0)
    have hmembers := h.members (level + 1) level ms fuel m r hfits (by omega)
    have hopen : (skipSpace (writeMember (level + 1) m ++ (writeMembers (level + 1) ms ++
        (newline level ++ '\x7d' :: r)))).head? ≠ some '\x7d' := by
      rw [skipSpace_writeMember, writeMember, List.append_assoc, quotedChars_append]
      simp
    rw [← skipSpace_writeMember, ← skipSpace_newline (level + 1), members_skipSpace] at hmembers
    rw [← skipSpace_newline (level + 1)] at hopen
    rw [value_brace _ _ hopen, hmembers]
    rfl

/-- Whatever the room, a document that fits it is read back: a list or record through its parts, for
which there is less room. -/
theorem readsBack (room : Nat) : ReadsBack room := by
  induction room using Nat.strongRecOn with
  | ind room ih =>
  intro fuel level x r hfits hfuel hr
  obtain ⟨c, cs, hwrite, -⟩ := exists_write_eq_cons level x
  obtain ⟨fuel, rfl⟩ : ∃ k, fuel = k + 1 := by
    rw [hwrite, List.length_cons] at hfuel
    exact Nat.exists_eq_add_one_of_ne_zero (by omega)
  cases x with
  | text s => rw [write, value_text, ofDocument]
  | flag b => rw [write, value_flag, ofDocument]
  | number n =>
    rw [write, ofDocument, value_number fuel room (by simpa only [Fits] using hfits) hr]
  | list xs =>
    cases room with
    | zero => exact absurd hfits (by simp [Fits])
    | succ room =>
      rw [ofDocument]
      exact (ih room room.lt_succ_self).list fuel level xs r (by simpa only [Fits] using hfits)
        hfuel
  | record ms =>
    cases room with
    | zero => exact absurd hfits (by simp [Fits])
    | succ room =>
      rw [ofDocument]
      exact (ih room room.lt_succ_self).record fuel level ms r (by simpa only [Fits] using hfits)
        hfuel

theorem parse?_toJson {x : Document} (h : Fits nestingLimit x) :
    parse? x.toJson = some (ofDocument x) := by
  have hvalue : value (2 * (write 0 x).length + 2) nestingLimit (write 0 x) =
      some (ofDocument x, []) := by
    have hread := readsBack nestingLimit (2 * (write 0 x).length + 2) 0 x [] h (by omega)
      (by simp [Ends])
    rwa [List.append_nil] at hread
  rw [parse?, Document.toJson, String.toList_ofList]
  simp only [hvalue, Option.bind_eq_bind, Option.bind_some]
  rfl

theorem shows_ofDocument : Readable.Shows ofDocument where
  members?_record ms := by rw [ofDocument]; rfl
  items?_list xs := by rw [ofDocument]; rfl
  text?_text s := by rw [ofDocument]; rfl
  ownText?_text s := by rw [ofDocument]; rfl
  word?_text s := by rw [ofDocument]; rfl
  storable_text s := rfl
  flag?_flag b := by rw [ofDocument]; rfl
  number?_number n := by rw [ofDocument]; rfl

end Json

namespace Descriptor

theorem fitsWord_toInt (n : Int64) : Number.fitsWord n.toInt = true := by
  have hhigh := Int64.toInt_lt n
  have hsize : (UInt64.size : Int) = 2 ^ 64 := rfl
  simp only [Number.fitsWord, Bool.and_eq_true, decide_eq_true_eq, hsize]
  exact ⟨Int64.minValue_le_toInt n, by omega⟩

/-- No list or record of a descriptor has more than three others around it. -/
theorem fits_document (d : Descriptor) (room : Nat) : Json.Fits (room + 4) d.document := by
  simp [document, Json.Fits, Info.members, Route.document, Middleware.document, fitsWord_toInt]

/-- Whatever its texts and priorities, a descriptor is read back from the JSON that is written of
it. -/
theorem ofJson_toJson (d : Descriptor) (h : d.Reachable) : ofJson d.toJson = .ok d := by
  apply h.wellFormed.parse_eq_ok
  rw [Draft.parse?, toJson, Json.parse?_toJson (d.fits_document 123)]
  exact d.read_shown Json.shows_ofDocument

theorem ofJson_toJson_hostile : hostile.Reachable ∧ ofJson hostile.toJson = .ok hostile :=
  ⟨reachable_hostile, ofJson_toJson hostile reachable_hostile⟩

end Descriptor

end Scaffold
