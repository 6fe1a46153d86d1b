/-!
Cutting a text at separators. A text with `k` separators has `k + 1` pieces, some perhaps empty.
-/

namespace Scaffold.Text

/-- The pieces between the characters that satisfy `sep`. -/
def piecesWhere (sep : Char → Bool) : List Char → List (List Char)
  | [] => [[]]
  | c :: cs =>
    if sep c then [] :: piecesWhere sep cs
    else
      match piecesWhere sep cs with
      | [] => [[c]]
      | piece :: rest => (c :: piece) :: rest

/-- No piece holds a separator. -/
theorem not_sep_of_mem_piecesWhere {sep : Char → Bool} {cs piece : List Char}
    (h : piece ∈ piecesWhere sep cs) {c : Char} (hc : c ∈ piece) : sep c = false := by
  induction cs generalizing piece with
  | nil => simp_all [piecesWhere]
  | cons d cs ih =>
    unfold piecesWhere at h
    split at h
    · rcases List.mem_cons.1 h with rfl | h
      · simp at hc
      · exact ih h hc
    · split at h <;> grind

theorem piecesWhere_append (sep : Char → Bool) {c : Char} (hc : sep c = true) (cs ds : List Char) :
    piecesWhere sep (cs ++ c :: ds) = piecesWhere sep cs ++ piecesWhere sep ds := by
  induction cs with
  | nil => simp [piecesWhere, hc]
  | cons d cs ih =>
    rw [List.cons_append, piecesWhere, piecesWhere, ih]
    split
    · rfl
    · cases h : piecesWhere sep cs with
      | nil =>
        cases cs with
        | nil => simp [piecesWhere] at h
        | cons e es =>
          rw [piecesWhere] at h
          split at h
          · cases h
          · split at h <;> cases h
      | cons piece pieces => rfl

theorem piecesWhere_eq_singleton {sep : Char → Bool} {cs : List Char}
    (h : ∀ c ∈ cs, sep c = false) : piecesWhere sep cs = [cs] := by
  induction cs with
  | nil => rfl
  | cons c cs ih =>
    have hc : sep c = false := h c List.mem_cons_self
    rw [piecesWhere, hc, ih fun d hd => h d (List.mem_cons_of_mem c hd)]
    rfl

def splitWhere (sep : Char → Bool) (s : String) : List String :=
  (piecesWhere sep s.toList).map String.ofList

def splitAt (sep : Char) (s : String) : List String := splitWhere (· == sep) s

/-- A separator keeps the pieces on its sides apart. -/
theorem splitAt_append {c : Char} {sep : String} (hsep : sep.toList = [c]) (s t : String) :
    splitAt c (s ++ sep ++ t) = splitAt c s ++ splitAt c t := by
  have hlist : (s ++ sep ++ t).toList = s.toList ++ c :: t.toList := by simp [hsep]
  have hpieces := piecesWhere_append (· == c) (beq_self_eq_true c) s.toList t.toList
  rw [splitAt, splitWhere, hlist, hpieces, List.map_append]
  rfl

/-- The same of the pieces that pass a test. -/
theorem filter_splitAt_append {c : Char} {sep : String} (hsep : sep.toList = [c])
    (keep : String → Bool) (s t : String) :
    (splitAt c (s ++ sep ++ t)).filter keep =
      (splitAt c s).filter keep ++ (splitAt c t).filter keep := by
  rw [splitAt_append hsep, List.filter_append]

theorem splitAt_of_not_mem {c : Char} {s : String} (h : c ∉ s.toList) : splitAt c s = [s] := by
  have hpieces : piecesWhere (· == c) s.toList = [s.toList] :=
    piecesWhere_eq_singleton fun d hd => beq_false_of_ne fun heq => h (heq ▸ hd)
  simp [splitAt, splitWhere, hpieces]

/-- The pieces between double colons, found from the left. -/
def pathPieces : List Char → List (List Char)
  | [] => [[]]
  | ':' :: ':' :: cs => [] :: pathPieces cs
  | c :: cs =>
    match pathPieces cs with
    | [] => [[c]]
    | piece :: rest => (c :: piece) :: rest

def splitPath (s : String) : List String := (pathPieces s.toList).map String.ofList

/-- What precedes the first double colon. -/
def beforeColons : List Char → List Char
  | [] => []
  | ':' :: ':' :: _ => []
  | c :: cs => c :: beforeColons cs

/-- The text after the last double colon, or all of it. -/
def lastSegment (s : String) : String :=
  String.ofList (beforeColons s.toList.reverse).reverse

/-- The lines of a text; a final line end opens no further line. -/
def lines (s : String) : List String :=
  let all := splitAt '\n' s
  if all.getLast? == some "" then all.dropLast else all

end Scaffold.Text
