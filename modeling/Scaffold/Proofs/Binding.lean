import Scaffold.Proofs.UseLines

/-!
How names, accesses, calls, references and operators bind in the generated language. A reader goes
over a text one character at a time and keeps what still waits for an operand. What stands directly
behind an operand binds closest, then the references in front of it, then a comparison, of which
there is one at most, and then conjunctions from the left.
-/

namespace Scaffold.Source

open Naming

namespace Binding

/-- What waits for the operand that comes next. -/
structure Pending where
  /-- What stands before the last conjunction. -/
  conjoined : Option Expr := none
  compared : Option (Expr × BinaryOp) := none
  refs : Nat := 0

def conjoin : Option Expr → Expr → Expr
  | none, e => e
  | some lhs, e => .binary lhs .and e

def compare : Option (Expr × BinaryOp) → Expr → Expr
  | none, e => e
  | some (lhs, op), e => .binary lhs op e

/-- A reference of a reference, and so on. -/
def refer : Nat → Expr → Expr
  | 0, e => e
  | n + 1, e => .ref (refer n e)

/-- What is read when the operand is the last. -/
def Pending.close (p : Pending) (e : Expr) : Expr :=
  conjoin p.conjoined (compare p.compared (refer p.refs e))

/-- What waits behind an operator. A comparison is no operand of another without parentheses. -/
def Pending.operate (p : Pending) (e : Expr) : BinaryOp → Option Pending
  | .and => some { conjoined := some (p.close e) }
  | op =>
    match p.compared with
    | none => some { conjoined := p.conjoined, compared := some (refer p.refs e, op) }
    | some _ => none

/-- Where the reader is. -/
inductive Cursor where
  /-- An operand must come. -/
  | start
  | word (name : List Char)
  /-- In the name behind a dot. -/
  | member (base : Expr) (name : List Char)
  /-- Directly behind an operand. -/
  | behind (e : Expr)
  /-- Behind an operand and a blank. -/
  | apart (e : Expr)
  /-- Behind the first character of an operator. -/
  | operator (e : Expr) (mark : Char)

/-- What an open parenthesis is for. -/
inductive Opening where
  | group
  /-- Arguments, of which some are read, and what is made of all. -/
  | arguments (make : List Expr → Expr) (done : List Expr)

structure State where
  cursor : Cursor := .start
  pending : Pending := {}
  /-- The open parentheses, the innermost first, each with what waits for its operand. -/
  opened : List (Pending × Opening) := []

def isNameChar (c : Char) : Bool := isWordChar c || c == '#'

def operator? : Char → Char → Option BinaryOp
  | '&', '&' => some .and
  | '=', '=' => some .eq
  | '!', '=' => some .ne
  | _, _ => none

/-- The operand that a name behind a dot makes; one name is no field. -/
def access? (base : Expr) (name : String) : Option Expr :=
  if name = "await" then some (.await base)
  else if isIdentifier name then some (.field base name)
  else none

/-- The operand that the cursor is at the end of. -/
def Cursor.operand? : Cursor → Option Expr
  | .word name =>
    if isIdentifier (String.ofList name) then some (.path (String.ofList name)) else none
  | .member base name => access? base (String.ofList name)
  | .behind e => some e
  | .apart e => some e
  | .start => none
  | .operator _ _ => none

namespace State

def openGroup (s : State) (o : Opening) : State := { opened := (s.pending, o) :: s.opened }

/-- The first character of an operand, or the end of arguments. -/
def begin (s : State) (c : Char) : Option State :=
  if isNameChar c then some { s with cursor := .word [c] }
  else
    match c with
    | ' ' => some s
    | '&' => some { s with pending := { s.pending with refs := s.pending.refs + 1 } }
    | '(' => some (s.openGroup .group)
    | ')' =>
      match s with
      | ⟨_, ⟨none, none, 0⟩, (p, .arguments make done) :: opened⟩ =>
        some ⟨.behind (make done), p, opened⟩
      | _ => none
    | _ => none

/-- What ends an operand: a blank, an operator, or the end of what the parenthesis holds. -/
def follow (s : State) (e : Expr) (c : Char) : Option State :=
  match c, s.opened with
  | ' ', _ => some { s with cursor := .apart e }
  | '&', _ => some { s with cursor := .operator e '&' }
  | '=', _ => some { s with cursor := .operator e '=' }
  | '!', _ => some { s with cursor := .operator e '!' }
  | ')', (p, .group) :: opened => some ⟨.behind (s.pending.close e), p, opened⟩
  | ')', (p, .arguments make done) :: opened =>
    some ⟨.behind (make (done ++ [s.pending.close e])), p, opened⟩
  | ',', (p, .arguments make done) :: opened =>
    some { opened := (p, .arguments make (done ++ [s.pending.close e])) :: opened }
  | _, _ => none

/-- What may stand directly behind an operand. -/
def attach (s : State) (e : Expr) (c : Char) : Option State :=
  match c with
  | '.' => some { s with cursor := .member e [] }
  | '?' => some { s with cursor := .behind (.attempt e) }
  | '(' => some (s.openGroup (.arguments (.call e) []))
  | c => s.follow e c

/-- The reader at one character. -/
def step (s : State) (c : Char) : Option State :=
  match s.cursor with
  | .start => s.begin c
  | .word name =>
    if isNameChar c then some { s with cursor := .word (name ++ [c]) }
    else s.cursor.operand?.bind (s.attach · c)
  | .member base name =>
    if isNameChar c then some { s with cursor := .member base (name ++ [c]) }
    else if c = '(' ∧ isIdentifier (String.ofList name) then
      some (s.openGroup (.arguments (.method base (String.ofList name)) []))
    else s.cursor.operand?.bind (s.attach · c)
  | .behind e => s.attach e c
  | .apart e => s.follow e c
  | .operator e mark =>
    ((operator? mark c).bind (s.pending.operate e)).map fun p => ⟨.start, p, s.opened⟩

def run (s : State) (text : String) : Option State := text.toList.foldlM step s

/-- The expression, if all that was open is closed. -/
def result? (s : State) : Option Expr :=
  if s.opened.isEmpty then s.cursor.operand?.map s.pending.close else none

end State

/-- The expression that a text is read as. -/
def read? (text : String) : Option Expr := (State.run {} text).bind State.result?

theorem access?_of_isIdentifier {name : String} (h : isIdentifier name = true) (base : Expr) :
    access? base name = some (.field base name) := by
  have hawait : name ≠ "await" := by
    rintro rfl
    revert h
    decide +kernel
  simp [access?, hawait, h]

namespace State

variable {s s' : State} {p p' : Pending} {k : List (Pending × Opening)} {e x : Expr} {c : Char}
  {cursor : Cursor} {text : String}

theorem run_append_eq_bind (s : State) (text rest : String) :
    s.run (text ++ rest) = (s.run text).bind (·.run rest) := by
  rw [run, String.toList_append, List.foldlM_append]
  rfl

theorem run_append (h : s.run text = some s') (rest : String) :
    s.run (text ++ rest) = s'.run rest := by
  rw [run_append_eq_bind, h]
  rfl

theorem exists_run_of_append {rest : String} (h : s.run (text ++ rest) = some s') :
    ∃ m, s.run text = some m ∧ m.run rest = some s' := by
  rw [run_append_eq_bind] at h
  exact Option.bind_eq_some_iff.mp h

theorem run_mark (c : Char) (h : text.toList = [c]) : s.run text = s.step c := by
  simp [run, h]

theorem run_mark_append (c : Char) (h : text.toList = [c]) (hstep : s.step c = some s')
    (rest : String) : s.run (text ++ rest) = s'.run rest :=
  run_append ((run_mark c h).trans hstep) rest

/-- At the end of an operand all that may stand behind a blank is read alike. -/
theorem step_of_operand? (h : cursor.operand? = some x) (hc : c ∈ [' ', ')', ',']) :
    step ⟨cursor, p, k⟩ c = follow ⟨cursor, p, k⟩ x c := by
  obtain ⟨hname, hattach⟩ :
      isNameChar c = false ∧ ∀ s : State, s.attach x c = s.follow x c := by
    simp only [List.mem_cons, List.not_mem_nil, or_false] at hc
    rcases hc with rfl | rfl | rfl <;> exact ⟨rfl, fun _ => rfl⟩
  cases cursor with
  | start => cases h
  | word name => simp [step, hname, h, hattach]
  | member base name =>
    have hopen : c ≠ '(' := by
      rintro rfl
      simp at hc
    simp [step, hname, hopen, h, hattach]
  | behind e =>
    cases h
    exact hattach _
  | apart e =>
    cases h
    rfl
  | operator e mark => cases h

/-- A dot stands directly behind an operand. -/
theorem eq_of_step_dot (h : cursor.operand? = some x) (hstep : step ⟨cursor, p, k⟩ '.' = some s) :
    s = ⟨.member x [], p, k⟩ := by
  have hname : isNameChar '.' = false := by decide
  cases cursor <;> simp_all [step, attach, follow, Cursor.operand?]

theorem eq_of_step_mark (h : cursor.operand? = some x) (hstep : step ⟨cursor, p, k⟩ '?' = some s) :
    s = ⟨.behind (.attempt x), p, k⟩ := by
  have hname : isNameChar '?' = false := by decide
  cases cursor <;> simp_all [step, attach, follow, Cursor.operand?]

/-- A parenthesis behind an operand opens its arguments. Behind a field they are those of a
method. -/
theorem eq_of_step_parenthesis (h : cursor.operand? = some x)
    (hstep : step ⟨cursor, p, k⟩ '(' = some s) :
    (∃ base name, x = .field base name ∧
        s = ⟨.start, {}, (p, .arguments (.method base name) []) :: k⟩) ∨
      (∀ base name, cursor = .member base name → isIdentifier (String.ofList name) = false) ∧
        s = ⟨.start, {}, (p, .arguments (.call x) []) :: k⟩ := by
  have hname : isNameChar '(' = false := by decide
  cases cursor with
  | member base name =>
    by_cases hid : isIdentifier (String.ofList name) = true
    · left
      refine ⟨base, String.ofList name, ?_, ?_⟩
      · simpa [Cursor.operand?, access?_of_isIdentifier hid] using h.symm
      · simpa [step, hname, hid, openGroup] using hstep.symm
    · right
      refine ⟨fun base' name' heq => ?_, ?_⟩
      · cases heq
        simpa using hid
      · simpa [step, hname, hid, h, attach, openGroup] using hstep.symm
  | word name | behind e | apart e | start | operator e mark =>
    simp_all [step, attach, follow, Cursor.operand?, openGroup]

/-- An operator between blanks. -/
theorem run_operator (h : cursor.operand? = some x) (op : BinaryOp) (rest : String) :
    run ⟨cursor, p, k⟩ (" " ++ op.text ++ " " ++ rest) =
      (p.operate x op).bind fun q => run ⟨.start, q, k⟩ rest := by
  have happart : step ⟨cursor, p, k⟩ ' ' = some ⟨.apart x, p, k⟩ := step_of_operand? h (by simp)
  have hmarks (mark c : Char) (htext : op.text.toList = [mark, c])
      (hfollow : follow ⟨.apart x, p, k⟩ x mark = some ⟨.operator x mark, p, k⟩)
      (hop : operator? mark c = some op) :
      run ⟨.apart x, p, k⟩ op.text = (p.operate x op).map fun q => ⟨.start, q, k⟩ := by
    simp [run, htext, step, hfollow, hop]
  have htext : run ⟨.apart x, p, k⟩ op.text = (p.operate x op).map fun q => ⟨.start, q, k⟩ := by
    cases op
    · exact hmarks '&' '&' rfl rfl rfl
    · exact hmarks '=' '=' rfl rfl rfl
    · exact hmarks '!' '=' rfl rfl rfl
  rw [String.append_assoc, String.append_assoc, run_mark_append ' ' rfl happart]
  cases hoperate : p.operate x op with
  | none =>
    rw [run_append_eq_bind, htext, hoperate]
    rfl
  | some q =>
    rw [hoperate] at htext
    have hblank : step ⟨.start, q, k⟩ ' ' = some ⟨.start, q, k⟩ := rfl
    rw [run_append htext, run_mark_append ' ' rfl hblank]
    rfl

theorem isNameChar_of_isIdentifier {name : String} (h : isIdentifier name = true) :
    ∀ c ∈ name.toList, isNameChar c = true := by
  intro c hc
  rcases inSegment_of_isIdentifier h hc with hword | rfl
  · simp [isNameChar, hword]
  · rfl

/-- A cursor that takes in one character of a name takes in any number of them. -/
theorem foldlM_step_name {cursor : List Char → Cursor}
    (hstep : ∀ name c, isNameChar c = true →
      step ⟨cursor name, p, k⟩ c = some ⟨cursor (name ++ [c]), p, k⟩)
    {rest : List Char} (h : ∀ c ∈ rest, isNameChar c = true) (name : List Char) :
    rest.foldlM step ⟨cursor name, p, k⟩ = some ⟨cursor (name ++ rest), p, k⟩ := by
  induction rest generalizing name with
  | nil => simp
  | cons c cs ih =>
    rw [List.forall_mem_cons] at h
    simp [hstep name c h.1, ih h.2]

theorem run_word {name : String} (h : isIdentifier name = true) (p : Pending)
    (k : List (Pending × Opening)) :
    run ⟨.start, p, k⟩ name = some ⟨.word name.toList, p, k⟩ := by
  have hchars := isNameChar_of_isIdentifier h
  cases hname : name.toList with
  | nil =>
    rw [String.toList_eq_nil_iff.mp hname] at h
    exact absurd h (by decide)
  | cons c cs =>
    rw [hname, List.forall_mem_cons] at hchars
    simp only [run, hname, List.foldlM_cons, step, begin, hchars.1, if_true]
    exact foldlM_step_name (fun name c hc => by simp [step, hc]) hchars.2 [c]

theorem run_member {name : String} (h : ∀ c ∈ name.toList, isNameChar c = true) (base : Expr)
    (p : Pending) (k : List (Pending × Opening)) :
    run ⟨.member base [], p, k⟩ name = some ⟨.member base name.toList, p, k⟩ :=
  foldlM_step_name (fun name c hc => by simp [step, hc]) h []

end State

end Binding

end Scaffold.Source
