import Scaffold.Proofs.Binding

/-!
Formulas are made of identifiers by references, operators, accesses and calls alone. Their texts are
read back unless an operation is referred to or a field is called: for these two the layout leaves
out the parentheses that it puts elsewhere.
-/

namespace Scaffold.Source

open Naming

namespace Expr

def isBinary : Expr → Bool
  | binary _ _ _ => true
  | _ => false

def isConjunction : Expr → Bool
  | binary _ .and _ => true
  | _ => false

def isField : Expr → Bool
  | field _ _ => true
  | _ => false

end Expr

mutual

/-- Whether the expression is made of identifiers by references, operators, accesses and calls. -/
@[simp] def Expr.isFormula : Expr → Bool
  | .path p => isIdentifier p
  | .ref inner => inner.isFormula
  | .binary lhs _ rhs => lhs.isFormula && rhs.isFormula
  | .field base name => base.isFormula && isIdentifier name
  | .method receiver name args => receiver.isFormula && isIdentifier name && areFormulas args
  | .call callee args => callee.isFormula && areFormulas args
  | .await inner => inner.isFormula
  | .attempt inner => inner.isFormula
  | _ => false

@[simp] def areFormulas : List Expr → Bool
  | [] => true
  | e :: es => e.isFormula && areFormulas es

end

mutual

/-- Whether no part of a formula refers to an operation or calls a field. -/
@[simp] def Expr.isGrouped : Expr → Bool
  | .ref inner => !inner.isBinary && inner.isGrouped
  | .binary lhs _ rhs => lhs.isGrouped && rhs.isGrouped
  | .field base _ => base.isGrouped
  | .method receiver _ args => receiver.isGrouped && areGrouped args
  | .call callee args => !callee.isField && callee.isGrouped && areGrouped args
  | .await inner => inner.isGrouped
  | .attempt inner => inner.isGrouped
  | _ => true

@[simp] def areGrouped : List Expr → Bool
  | [] => true
  | e :: es => e.isGrouped && areGrouped es

end

namespace Binding

open State

/-- Where the reader is at the end of an operand: a name is not over before the next character. -/
def standing : Expr → Cursor
  | .path p => .word p.toList
  | .field base name => .member base name.toList
  | .await inner => .member inner "await".toList
  | e => .behind e

variable {e : Expr} {text : String} {c : Char}

theorem operand?_standing (h : e.isFormula = true) : (standing e).operand? = some e := by
  cases e <;>
    simp_all [Expr.isFormula, standing, Cursor.operand?, access?_of_isIdentifier]
  simp [access?]

/-- A parenthesis behind a field makes a method of it. -/
theorem step_standing (h : e.isFormula = true) (hc : c ∈ ['.', '?', '('])
    (hfield : c = '(' → e.isField = false) (p : Pending) (k : List (Pending × Opening)) :
    step ⟨standing e, p, k⟩ c = attach ⟨standing e, p, k⟩ e c := by
  have hname : isNameChar c = false := by
    simp only [List.mem_cons, List.not_mem_nil, or_false] at hc
    rcases hc with rfl | rfl | rfl <;> rfl
  have hawait : isIdentifier "await" = false := by decide +kernel
  have hoperand := operand?_standing h
  cases e <;> simp_all [standing, step, Expr.isField]

theorem commaed_cons_cons (t u : String) (ts : List String) :
    commaed (t :: u :: ts) = t ++ "," ++ " " ++ commaed (u :: ts) := by
  have hseparator : ", " = "," ++ " " := rfl
  rw [commaed, commaed, String.intercalate_cons_cons, hseparator, ← String.append_assoc]

/-- How a text is read where an operand must come. -/
structure Reads (e : Expr) (text : String) : Prop where
  /-- An operand that binds closest is read with nothing before it. -/
  tight : e.isLoose = false → ∀ p k, run ⟨.start, p, k⟩ text = some ⟨standing e, p, k⟩
  /-- An operand of a comparison leaves its references to wait. -/
  side : e.isBinary = false → ∀ p k, ∃ cursor n x,
    run ⟨.start, p, k⟩ text = some ⟨cursor, { p with refs := p.refs + n }, k⟩ ∧
      cursor.operand? = some x ∧ e = refer n x
  whole : ∀ lhs, (lhs = none ∨ e.isConjunction = false) → ∀ k, ∃ cursor p x,
    run ⟨.start, { conjoined := lhs }, k⟩ text = some ⟨cursor, p, k⟩ ∧
      cursor.operand? = some x ∧ p.close x = conjoin lhs e

namespace Reads

theorem of_side (hbinary : e.isBinary = false) (hloose : e.isLoose = true)
    (hside : ∀ p k, ∃ cursor n x,
      run ⟨.start, p, k⟩ text = some ⟨cursor, { p with refs := p.refs + n }, k⟩ ∧
        cursor.operand? = some x ∧ e = refer n x) : Reads e text where
  tight h := by simp [hloose] at h
  side _ := hside
  whole lhs _ k := by
    obtain ⟨cursor, n, x, hrun, hoperand, rfl⟩ := hside { conjoined := lhs } k
    exact ⟨cursor, _, x, hrun, hoperand, by simp [Pending.close, compare]⟩

theorem of_tight (hformula : e.isFormula = true)
    (htight : ∀ p k, run ⟨.start, p, k⟩ text = some ⟨standing e, p, k⟩) : Reads e text where
  tight _ := htight
  side _ p k := ⟨standing e, 0, e, htight p k, operand?_standing hformula, rfl⟩
  whole lhs _ k :=
    ⟨standing e, { conjoined := lhs }, e, htight _ k, operand?_standing hformula, rfl⟩

/-- In parentheses any operand binds closest. -/
theorem group (h : Reads e text) (p : Pending) (k : List (Pending × Opening)) :
    run ⟨.start, p, k⟩ ("(" ++ text ++ ")") = some ⟨.behind e, p, k⟩ := by
  obtain ⟨cursor, q, x, hrun, hoperand, hclose⟩ := h.whole none (.inl rfl) ((p, .group) :: k)
  have hopen : step ⟨.start, p, k⟩ '(' = some ⟨.start, {}, (p, .group) :: k⟩ := rfl
  rw [String.append_assoc, run_mark_append '(' rfl hopen, run_append hrun, run_mark ')' rfl,
    step_of_operand? hoperand (by simp)]
  simp [follow, hclose, conjoin]

theorem parenthesized (h : Reads e text) (p : Pending) (k : List (Pending × Opening)) :
    run ⟨.start, p, k⟩ (parenthesized e.isLoose text) = some ⟨standing e, p, k⟩ := by
  cases hloose : e.isLoose with
  | false => exact h.tight hloose p k
  | true =>
    have hstanding : standing e = .behind e := by
      cases e <;> first | rfl | cases hloose
    rw [hstanding]
    exact h.group p k

theorem of_name {name : String} (h : isIdentifier name = true) : Reads (.path name) name :=
  of_tight (by simpa [Expr.isFormula] using h) fun p k => run_word h p k

theorem ref (h : Reads e text) (hbinary : e.isBinary = false) : Reads (.ref e) ("&" ++ text) := by
  refine of_side rfl rfl fun p k => ?_
  obtain ⟨cursor, n, x, hrun, hoperand, rfl⟩ := h.side hbinary { p with refs := p.refs + 1 } k
  have hstep : step ⟨.start, p, k⟩ '&' =
      some ⟨.start, { p with refs := p.refs + 1 }, k⟩ := rfl
  refine ⟨cursor, n + 1, x, ?_, hoperand, rfl⟩
  rw [run_mark_append '&' rfl hstep, hrun, Nat.add_assoc, Nat.add_comm 1]

/-- An operand beside a comparison. -/
theorem beside (h : Reads e text) {op : BinaryOp} (hop : op ≠ .and) (p : Pending)
    (k : List (Pending × Opening)) : ∃ cursor n x,
    run ⟨.start, p, k⟩ (Source.parenthesized (e.isLooseBeside op) text) =
        some ⟨cursor, { p with refs := p.refs + n }, k⟩ ∧
      cursor.operand? = some x ∧ e = refer n x := by
  cases hloose : e.isLooseBeside op with
  | true => exact ⟨.behind e, 0, e, h.group p k, rfl, rfl⟩
  | false =>
    apply h.side
    cases e with
    | binary lhs inner rhs =>
      cases inner <;> cases op <;> simp_all [Expr.isLooseBeside, BinaryOp.strength]
    | _ => rfl

/-- An operand beside a conjunction. -/
theorem besideAnd (h : Reads e text) (lhs : Option Expr) (k : List (Pending × Opening)) :
    ∃ cursor p x,
      run ⟨.start, { conjoined := lhs }, k⟩
          (Source.parenthesized (e.isLooseBeside .and) text) = some ⟨cursor, p, k⟩ ∧
        cursor.operand? = some x ∧ p.close x = conjoin lhs e := by
  cases hloose : e.isLooseBeside .and with
  | true => exact ⟨.behind e, _, e, h.group _ k, rfl, rfl⟩
  | false =>
    refine h.whole lhs (.inr ?_) k
    cases e with
    | binary lhs inner rhs =>
      cases inner <;> simp_all [Expr.isLooseBeside, BinaryOp.strength, Expr.isConjunction]
    | _ => rfl

section

variable {lhs rhs : Expr} {left right : String}

theorem and (hleft : Reads lhs left) (hright : Reads rhs right) :
    Reads (.binary lhs .and rhs)
      (Source.parenthesized (lhs.isLooseBeside .and) left ++ " " ++ BinaryOp.and.text ++ " " ++
        Source.parenthesized (rhs.isLooseBeside .and) right) where
  tight h := by cases h
  side h := by cases h
  whole front hfront k := by
    obtain rfl : front = none := hfront.resolve_right (by simp [Expr.isConjunction])
    obtain ⟨cursor, p, x, hrun, hoperand, hclose⟩ := hleft.besideAnd none k
    have hoperate : p.operate x .and = some { conjoined := some lhs } := by
      rw [Pending.operate, hclose, conjoin]
    obtain ⟨cursor', q, y, hrun', hoperand', hclose'⟩ := hright.besideAnd (some lhs) k
    refine ⟨cursor', q, y, ?_, hoperand', hclose'⟩
    simp only [String.append_assoc]
    rw [run_append hrun, ← String.append_assoc, ← String.append_assoc, run_operator hoperand,
      hoperate, Option.bind_some, hrun']

theorem comparison {op : BinaryOp} (hop : op ≠ .and) (hleft : Reads lhs left)
    (hright : Reads rhs right) :
    Reads (.binary lhs op rhs)
      (Source.parenthesized (lhs.isLooseBeside op) left ++ " " ++ op.text ++ " " ++
        Source.parenthesized (rhs.isLooseBeside op) right) where
  tight h := by cases h
  side h := by cases h
  whole front hfront k := by
    obtain ⟨cursor, n, x, hrun, hoperand, rfl⟩ := hleft.beside hop { conjoined := front } k
    have hoperate : Pending.operate { conjoined := front, refs := 0 + n } x op =
        some { conjoined := front, compared := some (refer n x, op) } := by
      rw [Nat.zero_add]
      cases op <;> first | rfl | exact absurd rfl hop
    obtain ⟨cursor', m, y, hrun', hoperand', rfl⟩ :=
      hright.beside hop { conjoined := front, compared := some (refer n x, op) } k
    refine ⟨cursor', ⟨front, some (refer n x, op), 0 + m⟩, y, ?_, hoperand',
      by simp [Pending.close, compare]⟩
    simp only [String.append_assoc]
    rw [run_append hrun, ← String.append_assoc, ← String.append_assoc, run_operator hoperand,
      hoperate, Option.bind_some, hrun']

end

theorem field (h : Reads e text) (hformula : e.isFormula = true) {name : String}
    (hname : isIdentifier name = true) :
    Reads (.field e name) (Source.parenthesized e.isLoose text ++ "." ++ name) := by
  refine of_tight (by simp [Expr.isFormula, hformula, hname]) fun p k => ?_
  have hdot : step ⟨standing e, p, k⟩ '.' = some ⟨.member e [], p, k⟩ :=
    step_standing hformula (by simp) (by simp) p k
  rw [String.append_assoc, run_append (h.parenthesized p k), run_mark_append '.' rfl hdot,
    run_member (isNameChar_of_isIdentifier hname)]
  rfl

theorem await (h : Reads e text) (hformula : e.isFormula = true) :
    Reads (.await e) (Source.parenthesized e.isLoose text ++ ".await") := by
  refine of_tight hformula fun p k => ?_
  have hdot : step ⟨standing e, p, k⟩ '.' = some ⟨.member e [], p, k⟩ :=
    step_standing hformula (by simp) (by simp) p k
  have hname : ∀ c ∈ "await".toList, isNameChar c = true := List.all_eq_true.mp rfl
  have htext : ".await" = "." ++ "await" := rfl
  rw [run_append (h.parenthesized p k), htext, run_mark_append '.' rfl hdot, run_member hname]
  rfl

theorem attempt (h : Reads e text) (hformula : e.isFormula = true) :
    Reads (.attempt e) (Source.parenthesized e.isLoose text ++ "?") := by
  refine of_tight hformula fun p k => ?_
  rw [run_append (h.parenthesized p k), run_mark '?' rfl,
    step_standing hformula (by simp) (by simp) p k]
  rfl

/-- Arguments up to the end of the parenthesis. -/
theorem arguments {es : List Expr} {texts : List String} (h : List.Forall₂ Reads es texts)
    (make : List Expr → Expr) (done : List Expr) (p : Pending) (k : List (Pending × Opening)) :
    run ⟨.start, {}, (p, .arguments make done) :: k⟩ (commaed texts ++ ")") =
      some ⟨.behind (make (done ++ es)), p, k⟩ := by
  induction h generalizing done with
  | nil =>
    have hname : isNameChar ')' = false := by decide
    simp [commaed, run, step, begin, hname]
  | @cons e text es texts he hes ih =>
    obtain ⟨cursor, q, x, hrun, hoperand, hclose⟩ :=
      he.whole none (.inl rfl) ((p, .arguments make done) :: k)
    cases hes with
    | nil =>
      rw [commaed, String.intercalate_singleton, run_append hrun, run_mark ')' rfl,
        step_of_operand? hoperand (by simp)]
      simp [follow, hclose, conjoin]
    | cons he' hes =>
      have hcomma : step ⟨cursor, q, (p, .arguments make done) :: k⟩ ',' =
          some ⟨.start, {}, (p, .arguments make (done ++ [e])) :: k⟩ := by
        rw [step_of_operand? hoperand (by simp)]
        simp [follow, hclose, conjoin]
      rw [commaed_cons_cons]
      simp only [String.append_assoc]
      rw [run_append hrun, run_mark_append ',' rfl hcomma, run_mark_append ' ' rfl rfl,
        ih (done ++ [e]), List.append_assoc]
      rfl

theorem call (h : Reads e text) (hformula : e.isFormula = true) (hfield : e.isField = false)
    {args : List Expr} {texts : List String} (hargs : List.Forall₂ Reads args texts)
    (hformulas : areFormulas args = true) :
    Reads (.call e args)
      (Source.parenthesized e.isLoose text ++ "(" ++ commaed texts ++ ")") := by
  refine of_tight (by simp [Expr.isFormula, hformula, hformulas]) fun p k => ?_
  have hopen : step ⟨standing e, p, k⟩ '(' =
      some ⟨.start, {}, (p, .arguments (.call e) []) :: k⟩ :=
    step_standing hformula (by simp) (fun _ => hfield) p k
  simp only [String.append_assoc]
  rw [run_append (h.parenthesized p k), run_mark_append '(' rfl hopen,
    arguments hargs (.call e) [] p k]
  rfl

theorem method (h : Reads e text) (hformula : e.isFormula = true) {name : String}
    (hname : isIdentifier name = true) {args : List Expr} {texts : List String}
    (hargs : List.Forall₂ Reads args texts) (hformulas : areFormulas args = true) :
    Reads (.method e name args)
      (Source.parenthesized e.isLoose text ++ "." ++ name ++ "(" ++ commaed texts ++ ")") := by
  refine of_tight (by simp [Expr.isFormula, hformula, hname, hformulas]) fun p k => ?_
  have hdot : step ⟨standing e, p, k⟩ '.' = some ⟨.member e [], p, k⟩ :=
    step_standing hformula (by simp) (by simp) p k
  have hopen : step ⟨.member e name.toList, p, k⟩ '(' =
      some ⟨.start, {}, (p, .arguments (.method e name) []) :: k⟩ := by
    have hmark : isNameChar '(' = false := by decide
    simp [step, hmark, hname, openGroup]
  simp only [String.append_assoc]
  rw [run_append (h.parenthesized p k), run_mark_append '.' rfl hdot,
    run_append (run_member (isNameChar_of_isIdentifier hname) e p k),
    run_mark_append '(' rfl hopen, arguments hargs (.method e name) [] p k]
  rfl

end Reads

end Binding

open Binding

mutual

theorem Expr.reads (speak : Speaker) (level : ℕ) : ∀ e : Expr, e.isFormula = true →
    e.isGrouped = true → Reads e (e.layout speak level)
  | .path p => by
    intro hformula _
    exact .of_name hformula
  | .ref inner => by
    intro hformula hgrouped
    simp only [Expr.isFormula, Expr.isGrouped, Bool.and_eq_true, Bool.not_eq_true'] at *
    exact (inner.reads speak level hformula hgrouped.2).ref hgrouped.1
  | .binary lhs op rhs => by
    intro hformula hgrouped
    simp only [Expr.isFormula, Expr.isGrouped, Bool.and_eq_true] at *
    have hleft := lhs.reads speak level hformula.1 hgrouped.1
    have hright := rhs.reads speak level hformula.2 hgrouped.2
    rw [Expr.layout]
    by_cases hop : op = .and
    · subst hop
      exact hleft.and hright
    · exact hleft.comparison hop hright
  | .field base name => by
    intro hformula hgrouped
    simp only [Expr.isFormula, Expr.isGrouped, Bool.and_eq_true] at *
    exact (base.reads speak level hformula.1 hgrouped).field hformula.1 hformula.2
  | .method receiver name args => by
    intro hformula hgrouped
    simp only [Expr.isFormula, Expr.isGrouped, Bool.and_eq_true] at *
    obtain ⟨⟨hreceiver, hname⟩, hargs⟩ := hformula
    exact (receiver.reads speak level hreceiver hgrouped.1).method hreceiver hname
      (exprTexts_read speak level args hargs hgrouped.2) hargs
  | .call callee args => by
    intro hformula hgrouped
    simp only [Expr.isFormula, Expr.isGrouped, Bool.and_eq_true, Bool.not_eq_true'] at *
    obtain ⟨⟨hfield, hcallee⟩, hargs⟩ := hgrouped
    exact (callee.reads speak level hformula.1 hcallee).call hformula.1 hfield
      (exprTexts_read speak level args hformula.2 hargs) hformula.2
  | .await inner => by
    intro hformula hgrouped
    exact (inner.reads speak level hformula hgrouped).await hformula
  | .attempt inner => by
    intro hformula hgrouped
    exact (inner.reads speak level hformula hgrouped).attempt hformula
  | .text _ | .char _ | .bool _ | .imported _ _ | .traitItem _ _ _ | .turbofish _ _ | .tuple _
  | .closure _ _ _ | .async _ _ | .record _ _ | .invoke _ _ | .block _ | .choose _ _ => nofun

theorem exprTexts_read (speak : Speaker) (level : ℕ) : ∀ es : List Expr,
    areFormulas es = true → areGrouped es = true →
      List.Forall₂ Reads es (exprTexts speak level es)
  | [] => fun _ _ => .nil
  | e :: es => by
    intro hformula hgrouped
    rw [areFormulas, Bool.and_eq_true] at hformula
    rw [areGrouped, Bool.and_eq_true] at hgrouped
    exact .cons (e.reads speak level hformula.1 hgrouped.1)
      (exprTexts_read speak level es hformula.2 hgrouped.2)

end

theorem Expr.read?_layout {e : Expr} (hformula : e.isFormula = true) (hgrouped : e.isGrouped = true)
    (speak : Speaker) (level : ℕ) : read? (e.layout speak level) = some e := by
  obtain ⟨cursor, p, x, hrun, hoperand, hclose⟩ :=
    (e.reads speak level hformula hgrouped).whole none (.inl rfl) []
  rw [read?]
  simp [hrun, State.result?, hoperand, hclose, conjoin]

end Scaffold.Source
