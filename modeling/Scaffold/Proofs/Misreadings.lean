import Scaffold.Proofs.Formulas

/-!
Formulas that are not read back. What a text is read as is never larger than what was written, and
where an operation is referred to or a field is called it is smaller: the references reach less far,
or a field and its call become one method call.
-/

namespace Scaffold.Source

open Naming

mutual

/-- The number of nodes of a formula. -/
@[simp] def Expr.size : Expr → ℕ
  | .ref inner => inner.size + 1
  | .binary lhs _ rhs => lhs.size + rhs.size + 1
  | .field base _ => base.size + 1
  | .method receiver _ args => receiver.size + exprSizes args + 1
  | .call callee args => callee.size + exprSizes args + 1
  | .await inner => inner.size + 1
  | .attempt inner => inner.size + 1
  | _ => 1

@[simp] def exprSizes : List Expr → ℕ
  | [] => 0
  | e :: es => e.size + exprSizes es

end

mutual

/-- The number of nodes, together with how many of them each reference reaches. -/
@[simp] def Expr.weight : Expr → ℕ
  | .ref inner => inner.weight + inner.size + 1
  | .binary lhs _ rhs => lhs.weight + rhs.weight + 1
  | .field base _ => base.weight + 1
  | .method receiver _ args => receiver.weight + exprWeights args + 1
  | .call callee args => callee.weight + exprWeights args + 1
  | .await inner => inner.weight + 1
  | .attempt inner => inner.weight + 1
  | _ => 1

@[simp] def exprWeights : List Expr → ℕ
  | [] => 0
  | e :: es => e.weight + exprWeights es

end

/-- The first expression is not larger than the second, and only as large under a condition. -/
structure Shrinks (P : Prop) (x e : Expr) : Prop where
  size_le : x.size ≤ e.size
  weight_le : x.weight ≤ e.weight
  cond : x.weight = e.weight → P

structure ShrinkAll (P : Prop) (xs es : List Expr) : Prop where
  sizes_le : exprSizes xs ≤ exprSizes es
  weights_le : exprWeights xs ≤ exprWeights es
  cond : exprWeights xs = exprWeights es → P

namespace Shrinks

variable {P Q : Prop} {x y e f : Expr}

theorem refl (e : Expr) (h : P) : Shrinks P e e := ⟨Nat.le_refl _, Nat.le_refl _, fun _ => h⟩

theorem imp (h : Shrinks P x e) (hPQ : P → Q) : Shrinks Q x e :=
  ⟨h.size_le, h.weight_le, fun heq => hPQ (h.cond heq)⟩

theorem ref (h : Shrinks P x e) : Shrinks P (.ref x) (.ref e) := by
  obtain ⟨hsize, hweight, hcond⟩ := h
  refine ⟨?_, ?_, fun heq => hcond ?_⟩ <;> simp only [Expr.size, Expr.weight] at * <;> omega

theorem binary (h : Shrinks P x e) (h' : Shrinks Q y f) (op : BinaryOp) :
    Shrinks (P ∧ Q) (.binary x op y) (.binary e op f) := by
  obtain ⟨hsize, hweight, hcond⟩ := h
  obtain ⟨hsize', hweight', hcond'⟩ := h'
  refine ⟨?_, ?_, fun heq => ⟨hcond ?_, hcond' ?_⟩⟩ <;>
    simp only [Expr.size, Expr.weight] at * <;> omega

theorem field (h : Shrinks P x e) (name : String) :
    Shrinks P (.field x name) (.field e name) := by
  obtain ⟨hsize, hweight, hcond⟩ := h
  refine ⟨?_, ?_, fun heq => hcond ?_⟩ <;> simp only [Expr.size, Expr.weight] at * <;> omega

theorem await (h : Shrinks P x e) : Shrinks P (.await x) (.await e) := by
  obtain ⟨hsize, hweight, hcond⟩ := h
  refine ⟨?_, ?_, fun heq => hcond ?_⟩ <;> simp only [Expr.size, Expr.weight] at * <;> omega

theorem attempt (h : Shrinks P x e) : Shrinks P (.attempt x) (.attempt e) := by
  obtain ⟨hsize, hweight, hcond⟩ := h
  refine ⟨?_, ?_, fun heq => hcond ?_⟩ <;> simp only [Expr.size, Expr.weight] at * <;> omega

section

variable {xs es : List Expr} (h : Shrinks P x e) (hargs : ShrinkAll Q xs es)

include h hargs

theorem method (name : String) : Shrinks (P ∧ Q) (.method x name xs) (.method e name es) := by
  obtain ⟨hsize, hweight, hcond⟩ := h
  obtain ⟨hsizes, hweights, hconds⟩ := hargs
  refine ⟨?_, ?_, fun heq => ⟨hcond ?_, hconds ?_⟩⟩ <;>
    simp only [Expr.size, Expr.weight] at * <;> omega

theorem call : Shrinks (P ∧ Q) (.call x xs) (.call e es) := by
  obtain ⟨hsize, hweight, hcond⟩ := h
  obtain ⟨hsizes, hweights, hconds⟩ := hargs
  refine ⟨?_, ?_, fun heq => ⟨hcond ?_, hconds ?_⟩⟩ <;>
    simp only [Expr.size, Expr.weight] at * <;> omega

end

/-- A method call is smaller than the call of the field. -/
theorem method_call {name : String} {xs es : List Expr} (h : Shrinks P (.field x name) e)
    (hargs : ShrinkAll Q xs es) : Shrinks False (.method x name xs) (.call e es) := by
  obtain ⟨hsize, hweight, -⟩ := h
  obtain ⟨hsizes, hweights, -⟩ := hargs
  refine ⟨?_, ?_, fun heq => ?_⟩ <;> simp only [Expr.size, Expr.weight] at * <;> omega

end Shrinks

theorem ShrinkAll.nil {P : Prop} (h : P) : ShrinkAll P [] [] :=
  ⟨Nat.le_refl _, Nat.le_refl _, fun _ => h⟩

theorem Shrinks.cons {x e : Expr} {xs es : List Expr} (h : Shrinks (e.isGrouped = true) x e)
    (hall : ShrinkAll (areGrouped es = true) xs es) :
    ShrinkAll (areGrouped (e :: es) = true) (x :: xs) (e :: es) := by
  obtain ⟨hsize, hweight, hcond⟩ := h
  obtain ⟨hsizes, hweights, hconds⟩ := hall
  simp only [areGrouped, Bool.and_eq_true]
  refine ⟨?_, ?_, fun heq => ⟨hcond ?_, hconds ?_⟩⟩ <;>
    simp only [exprSizes, exprWeights] at * <;> omega

namespace Binding

variable {P : Prop} {x y e : Expr}

theorem shrinks_refer (h : Shrinks P x e) (n : ℕ) : Shrinks P (refer n x) (refer n e) := by
  induction n with
  | zero => exact h
  | succ n ih => exact ih.ref

theorem shrinks_close (h : Shrinks P x e) (p : Pending) : Shrinks P (p.close x) (p.close e) := by
  have hrefer := shrinks_refer h p.refs
  have hcompare (c : Option (Expr × BinaryOp)) :
      Shrinks P (compare c (Binding.refer p.refs x)) (compare c (Binding.refer p.refs e)) := by
    cases c with
    | none => exact hrefer
    | some c => exact ((Shrinks.refl c.1 trivial).binary hrefer c.2).imp And.right
  cases hconjoined : p.conjoined with
  | none => simpa [Pending.close, hconjoined, conjoin] using hcompare p.compared
  | some lhs =>
    simpa [Pending.close, hconjoined, conjoin] using
      ((Shrinks.refl lhs trivial).binary (hcompare p.compared) .and).imp And.right

theorem refer_succ (n : ℕ) (e : Expr) : refer (n + 1) e = refer n (.ref e) := by
  induction n with
  | zero => rfl
  | succ n ih => exact congrArg Expr.ref ih

/-- References in front of an operation reach both of its sides, and in front of its left side only
that. -/
theorem size_refer_binary (n : ℕ) (op : BinaryOp) :
    (refer n (.binary x op y)).size = (refer n x).size + y.size + 1 := by
  induction n with
  | zero => rfl
  | succ n ih => simp only [refer, Expr.size, ih]; omega

theorem weight_refer_binary (n : ℕ) (op : BinaryOp) :
    (refer n (.binary x op y)).weight =
      (refer n x).weight + y.weight + 1 + n * (y.size + 1) := by
  induction n with
  | zero => simp [refer, Expr.weight]
  | succ n ih =>
    simp only [refer, Expr.weight, ih, size_refer_binary, Nat.add_mul]
    omega

section

variable (p : Pending) (op : BinaryOp)

theorem size_close_binary :
    (p.close (.binary x op y)).size = (p.close x).size + y.size + 1 := by
  obtain ⟨conjoined, compared, refs⟩ := p
  cases conjoined <;> cases compared <;>
    simp only [Pending.close, conjoin, compare, Expr.size, size_refer_binary] <;> omega

theorem weight_close_binary :
    (p.close (.binary x op y)).weight =
      (p.close x).weight + y.weight + 1 + p.refs * (y.size + 1) := by
  obtain ⟨conjoined, compared, refs⟩ := p
  cases conjoined <;> cases compared <;>
    simp only [Pending.close, conjoin, compare, Expr.weight, weight_refer_binary] <;> omega

variable {p op} {q : Pending}

/-- What waits behind an operator holds what is in front of it, as an operand or above one. -/
theorem measure_close_of_operate {measure : Expr → ℕ}
    (hbinary : ∀ lhs op rhs, measure (.binary lhs op rhs) = measure lhs + measure rhs + 1)
    (h : p.operate x op = some q) :
    measure (q.close y) = measure (p.close x) + measure y + 1 := by
  obtain ⟨conjoined, compared, refs⟩ := p
  cases op <;> cases compared <;>
    simp only [Pending.operate, reduceCtorEq, Option.some.injEq] at h <;>
    subst h <;> cases conjoined <;>
    simp only [Pending.close, conjoin, compare, refer, hbinary] <;> omega

end

theorem shrinks_operate {Q : Prop} {p p' q s : Pending} {lhs rhs : Expr} {op : BinaryOp}
    (hleft : Shrinks P (p'.close x) (p.close lhs)) (hoperate : p'.operate x op = some q)
    (hright : Shrinks Q (s.close y) (q.close rhs)) :
    Shrinks ((P ∧ Q) ∧ p.refs = 0) (s.close y) (p.close (.binary lhs op rhs)) := by
  obtain ⟨hsize, hweight, hcond⟩ := hleft
  obtain ⟨hsize', hweight', hcond'⟩ := hright
  have hbehind : (q.close rhs).size = (p'.close x).size + rhs.size + 1 :=
    measure_close_of_operate (fun _ _ _ => rfl) hoperate
  have hbehind' : (q.close rhs).weight = (p'.close x).weight + rhs.weight + 1 :=
    measure_close_of_operate (fun _ _ _ => rfl) hoperate
  have hbinary := size_close_binary (x := lhs) (y := rhs) p op
  have hbinary' := weight_close_binary (x := lhs) (y := rhs) p op
  refine ⟨by omega, by omega, fun heq => ?_⟩
  have hzero : p.refs * (rhs.size + 1) = 0 := by omega
  refine ⟨⟨hcond (by omega), hcond' (by omega)⟩, ?_⟩
  exact (Nat.mul_eq_zero.mp hzero).resolve_right (Nat.succ_ne_zero _)

open State

variable {text : String} {p : Pending} {k : List (Pending × Opening)} {s : State}

/-- Where the reader is behind a text that it came through, if the text is that of an operand that
binds closest. -/
structure EndsTight (e : Expr) (p : Pending) (k : List (Pending × Opening)) (s : State) (x : Expr) :
    Prop where
  pending : s.pending = p
  opened : s.opened = k
  operand : s.cursor.operand? = some x
  shrinks : Shrinks (e.isGrouped = true) x e
  field : e.isField = true →
    ∃ base name, s.cursor = .member base name ∧ isIdentifier (String.ofList name) = true

/-- How a text is read where an operand must come, if the reader comes through. -/
structure ReadsWithin (e : Expr) (text : String) : Prop where
  tight : e.isLoose = false → ∀ {p k s}, run ⟨.start, p, k⟩ text = some s →
    ∃ x, EndsTight e p k s x
  whole : ∀ {p k s}, run ⟨.start, p, k⟩ text = some s →
    s.opened = k ∧ ∃ x, s.cursor.operand? = some x ∧
      Shrinks (e.isGrouped = true ∧ (p.refs ≠ 0 → e.isBinary = false)) (s.pending.close x)
        (p.close e)

namespace ReadsWithin

theorem of_tight (hbinary : e.isBinary = false)
    (htight : ∀ {p k s}, run ⟨.start, p, k⟩ text = some s → ∃ x, EndsTight e p k s x) :
    ReadsWithin e text where
  tight _ := htight
  whole hrun := by
    obtain ⟨x, hpending, hopened, hoperand, hshrinks, -⟩ := htight hrun
    rw [hpending]
    exact ⟨hopened, x, hoperand, (shrinks_close hshrinks _).imp fun h => ⟨h, fun _ => hbinary⟩⟩

theorem group (h : ReadsWithin e text) (hfield : e.isField = false)
    (hrun : run ⟨.start, p, k⟩ ("(" ++ text ++ ")") = some s) : ∃ x, EndsTight e p k s x := by
  have hopen : step ⟨.start, p, k⟩ '(' = some ⟨.start, {}, (p, .group) :: k⟩ := rfl
  rw [String.append_assoc, run_mark_append '(' rfl hopen] at hrun
  obtain ⟨⟨cursor, q, opened⟩, hinner, hrest⟩ := exists_run_of_append hrun
  obtain ⟨rfl, x, hoperand, hshrinks⟩ := h.whole hinner
  rw [run_mark ')' rfl, step_of_operand? hoperand (by simp)] at hrest
  cases hrest
  exact ⟨q.close x, rfl, rfl, rfl, hshrinks.imp And.left, by simp [hfield]⟩

theorem parenthesized (h : ReadsWithin e text)
    (hrun : run ⟨.start, p, k⟩ (parenthesized e.isLoose text) = some s) :
    ∃ x, EndsTight e p k s x := by
  cases hloose : e.isLoose with
  | false =>
    rw [hloose] at hrun
    exact h.tight hloose hrun
  | true =>
    rw [hloose] at hrun
    refine h.group ?_ hrun
    cases e <;> first | rfl | cases hloose

theorem of_name {name : String} (h : isIdentifier name = true) :
    ReadsWithin (.path name) name := by
  refine of_tight rfl fun {p k s} hrun => ?_
  rw [run_word h] at hrun
  cases hrun
  exact ⟨.path name, rfl, rfl, by simp [Cursor.operand?, h], .refl _ rfl, fun heq => by cases heq⟩

theorem ref (h : ReadsWithin e text) : ReadsWithin (.ref e) ("&" ++ text) where
  tight hloose := by cases hloose
  whole {p k s} hrun := by
    have hstep : step ⟨.start, p, k⟩ '&' =
        some ⟨.start, { p with refs := p.refs + 1 }, k⟩ := rfl
    rw [run_mark_append '&' rfl hstep] at hrun
    obtain ⟨hopened, x, hoperand, hshrinks⟩ := h.whole hrun
    have hclose : Pending.close { p with refs := p.refs + 1 } e = p.close (.ref e) := by
      simp only [Pending.close, refer_succ]
    rw [hclose] at hshrinks
    refine ⟨hopened, x, hoperand, hshrinks.imp fun hcond => ⟨?_, fun _ => rfl⟩⟩
    simp [Expr.isGrouped, hcond.1, hcond.2 (Nat.succ_ne_zero _)]

/-- An operand beside an operator. -/
theorem beside (h : ReadsWithin e text) (op : BinaryOp)
    (hrun : run ⟨.start, p, k⟩ (Source.parenthesized (e.isLooseBeside op) text) = some s) :
    s.opened = k ∧ ∃ x, s.cursor.operand? = some x ∧
      Shrinks (e.isGrouped = true) (s.pending.close x) (p.close e) := by
  cases hloose : e.isLooseBeside op with
  | false =>
    rw [hloose] at hrun
    obtain ⟨hopened, x, hoperand, hshrinks⟩ := h.whole hrun
    exact ⟨hopened, x, hoperand, hshrinks.imp And.left⟩
  | true =>
    rw [hloose] at hrun
    have hfield : e.isField = false := by cases e <;> first | rfl | cases hloose
    obtain ⟨x, hpending, hopened, hoperand, hshrinks, -⟩ := h.group hfield hrun
    rw [hpending]
    exact ⟨hopened, x, hoperand, shrinks_close hshrinks p⟩

theorem binary {lhs rhs : Expr} {left right : String} (hleft : ReadsWithin lhs left)
    (op : BinaryOp) (hright : ReadsWithin rhs right) :
    ReadsWithin (.binary lhs op rhs)
      (Source.parenthesized (lhs.isLooseBeside op) left ++ " " ++ op.text ++ " " ++
        Source.parenthesized (rhs.isLooseBeside op) right) where
  tight hloose := by cases hloose
  whole {p k s} hrun := by
    simp only [String.append_assoc] at hrun
    obtain ⟨⟨cursor, p', opened⟩, hrun, hrest⟩ := exists_run_of_append hrun
    obtain ⟨rfl, x, hoperand, hshrinks⟩ := hleft.beside op hrun
    rw [← String.append_assoc, ← String.append_assoc, run_operator hoperand] at hrest
    obtain ⟨q, hoperate, hrest⟩ := Option.bind_eq_some_iff.mp hrest
    obtain ⟨hopened, y, hoperand', hshrinks'⟩ := hright.beside op hrest
    have hboth := shrinks_operate hshrinks hoperate hshrinks'
    refine ⟨hopened, y, hoperand', hboth.imp fun hcond => ⟨?_, fun hrefs => absurd hcond.2 hrefs⟩⟩
    simp [Expr.isGrouped, hcond.1]

theorem field (h : ReadsWithin e text) {name : String} (hname : isIdentifier name = true) :
    ReadsWithin (.field e name) (Source.parenthesized e.isLoose text ++ "." ++ name) := by
  refine of_tight rfl fun {p k s} hrun => ?_
  rw [String.append_assoc] at hrun
  obtain ⟨⟨cursor, p', opened⟩, hrun, hrest⟩ := exists_run_of_append hrun
  obtain ⟨x, rfl, rfl, hoperand, hshrinks, -⟩ := h.parenthesized hrun
  obtain ⟨m, hdot, hrest⟩ := exists_run_of_append hrest
  rw [run_mark '.' rfl] at hdot
  obtain rfl := eq_of_step_dot hoperand hdot
  rw [run_member (isNameChar_of_isIdentifier hname)] at hrest
  cases hrest
  exact ⟨.field x name, rfl, rfl, by simp [Cursor.operand?, access?_of_isIdentifier hname],
    hshrinks.field name, fun _ => ⟨x, name.toList, rfl, by simpa using hname⟩⟩

theorem await (h : ReadsWithin e text) :
    ReadsWithin (.await e) (Source.parenthesized e.isLoose text ++ ".await") := by
  refine of_tight rfl fun {p k s} hrun => ?_
  have htext : ".await" = "." ++ "await" := rfl
  obtain ⟨⟨cursor, p', opened⟩, hrun, hrest⟩ := exists_run_of_append hrun
  obtain ⟨x, rfl, rfl, hoperand, hshrinks, -⟩ := h.parenthesized hrun
  rw [htext] at hrest
  obtain ⟨m, hdot, hrest⟩ := exists_run_of_append hrest
  rw [run_mark '.' rfl] at hdot
  obtain rfl := eq_of_step_dot hoperand hdot
  have hname : ∀ c ∈ "await".toList, isNameChar c = true := List.all_eq_true.mp rfl
  rw [run_member hname] at hrest
  cases hrest
  refine ⟨.await x, rfl, rfl, ?_, hshrinks.await, fun heq => by cases heq⟩
  simp [Cursor.operand?, access?]

theorem attempt (h : ReadsWithin e text) :
    ReadsWithin (.attempt e) (Source.parenthesized e.isLoose text ++ "?") := by
  refine of_tight rfl fun {p k s} hrun => ?_
  obtain ⟨⟨cursor, p', opened⟩, hrun, hrest⟩ := exists_run_of_append hrun
  obtain ⟨x, rfl, rfl, hoperand, hshrinks, -⟩ := h.parenthesized hrun
  rw [run_mark '?' rfl] at hrest
  obtain rfl := eq_of_step_mark hoperand hrest
  exact ⟨.attempt x, rfl, rfl, rfl, hshrinks.attempt, fun heq => by cases heq⟩

/-- Arguments up to the end of the parenthesis. -/
theorem arguments {es : List Expr} {texts : List String} (h : List.Forall₂ ReadsWithin es texts)
    {make : List Expr → Expr} {done : List Expr}
    (hrun : run ⟨.start, {}, (p, .arguments make done) :: k⟩ (commaed texts ++ ")") = some s) :
    ∃ xs, s = ⟨.behind (make (done ++ xs)), p, k⟩ ∧
      ShrinkAll (areGrouped es = true) xs es := by
  induction h generalizing done with
  | nil =>
    have hname : isNameChar ')' = false := by decide
    simp [commaed, run, step, begin, hname] at hrun
    exact ⟨[], by simpa using hrun.symm, .nil rfl⟩
  | @cons e text es texts he hes ih =>
    have harg {rest : String} {s : State}
        (hrun : run ⟨.start, {}, (p, .arguments make done) :: k⟩ (text ++ rest) = some s) :
        ∃ cursor q x, cursor.operand? = some x ∧
          run ⟨cursor, q, (p, .arguments make done) :: k⟩ rest = some s ∧
          Shrinks (e.isGrouped = true) (q.close x) e := by
      obtain ⟨⟨cursor, q, opened⟩, hrun, hrest⟩ := exists_run_of_append hrun
      obtain ⟨rfl, x, hoperand, hshrinks⟩ := he.whole hrun
      exact ⟨cursor, q, x, hoperand, hrest, hshrinks.imp And.left⟩
    cases hes with
    | nil =>
      rw [commaed, String.intercalate_singleton] at hrun
      obtain ⟨cursor, q, x, hoperand, hrest, hshrinks⟩ := harg hrun
      rw [run_mark ')' rfl, step_of_operand? hoperand (by simp)] at hrest
      cases hrest
      exact ⟨[q.close x], rfl, hshrinks.cons (.nil rfl)⟩
    | cons he' hes =>
      rw [commaed_cons_cons] at hrun
      simp only [String.append_assoc] at hrun
      obtain ⟨cursor, q, x, hoperand, hrest, hshrinks⟩ := harg hrun
      have hcomma : step ⟨cursor, q, (p, .arguments make done) :: k⟩ ',' =
          some ⟨.start, {}, (p, .arguments make (done ++ [q.close x])) :: k⟩ :=
        step_of_operand? hoperand (by simp)
      rw [run_mark_append ',' rfl hcomma, run_mark_append ' ' rfl rfl] at hrest
      obtain ⟨xs, rfl, hall⟩ := ih hrest
      exact ⟨q.close x :: xs, by simp, hshrinks.cons hall⟩

theorem call (h : ReadsWithin e text) {args : List Expr} {texts : List String}
    (hargs : List.Forall₂ ReadsWithin args texts) :
    ReadsWithin (.call e args)
      (Source.parenthesized e.isLoose text ++ "(" ++ commaed texts ++ ")") := by
  refine of_tight rfl fun {p k s} hrun => ?_
  simp only [String.append_assoc] at hrun
  obtain ⟨⟨cursor, p', opened⟩, hrun, hrest⟩ := exists_run_of_append hrun
  obtain ⟨x, rfl, rfl, hoperand, hshrinks, hfield⟩ := h.parenthesized hrun
  obtain ⟨m, hopen, hrest⟩ := exists_run_of_append hrest
  rw [run_mark '(' rfl] at hopen
  rcases eq_of_step_parenthesis hoperand hopen with ⟨base, name, rfl, rfl⟩ | ⟨hmember, rfl⟩
  · obtain ⟨xs, rfl, hall⟩ := arguments hargs hrest
    have hsmaller := hshrinks.method_call hall
    exact ⟨.method base name xs, rfl, rfl, rfl, hsmaller.imp False.elim, fun heq => by cases heq⟩
  · obtain ⟨xs, rfl, hall⟩ := arguments hargs hrest
    have hcallee : e.isField = false := by
      rw [← Bool.not_eq_true]
      intro heq
      obtain ⟨base, name, hcursor, hname⟩ := hfield heq
      rw [hmember base name hcursor] at hname
      cases hname
    refine ⟨.call x xs, rfl, rfl, rfl, (hshrinks.call hall).imp fun hcond => ?_,
      fun heq => by cases heq⟩
    simp [Expr.isGrouped, hcallee, hcond.1, hcond.2]

theorem method (h : ReadsWithin e text) {name : String} (hname : isIdentifier name = true)
    {args : List Expr} {texts : List String} (hargs : List.Forall₂ ReadsWithin args texts) :
    ReadsWithin (.method e name args)
      (Source.parenthesized e.isLoose text ++ "." ++ name ++ "(" ++ commaed texts ++ ")") := by
  refine of_tight rfl fun {p k s} hrun => ?_
  simp only [String.append_assoc] at hrun
  obtain ⟨⟨cursor, p', opened⟩, hrun, hrest⟩ := exists_run_of_append hrun
  obtain ⟨x, rfl, rfl, hoperand, hshrinks, -⟩ := h.parenthesized hrun
  obtain ⟨m, hdot, hrest⟩ := exists_run_of_append hrest
  rw [run_mark '.' rfl] at hdot
  obtain rfl := eq_of_step_dot hoperand hdot
  have hmark : isNameChar '(' = false := by decide
  have hopen (p : Pending) (k : List (Pending × Opening)) :
      step ⟨.member x name.toList, p, k⟩ '(' =
        some ⟨.start, {}, (p, .arguments (.method x name) []) :: k⟩ := by
    simp [step, hmark, hname, openGroup]
  rw [run_append (run_member (isNameChar_of_isIdentifier hname) x _ _),
    run_mark_append '(' rfl (hopen _ _)] at hrest
  obtain ⟨xs, rfl, hall⟩ := arguments hargs hrest
  refine ⟨.method x name xs, rfl, rfl, rfl, (hshrinks.method hall name).imp fun hcond => ?_,
    fun heq => by cases heq⟩
  simp [Expr.isGrouped, hcond.1, hcond.2]

end ReadsWithin

end Binding

open Binding

mutual

theorem Expr.readsWithin (speak : Speaker) (level : ℕ) : ∀ e : Expr, e.isFormula = true →
    ReadsWithin e (e.layout speak level)
  | .path p => fun hformula => .of_name hformula
  | .ref inner => fun hformula => (inner.readsWithin speak level hformula).ref
  | .binary lhs op rhs => by
    intro hformula
    rw [Expr.isFormula, Bool.and_eq_true] at hformula
    exact (lhs.readsWithin speak level hformula.1).binary op
      (rhs.readsWithin speak level hformula.2)
  | .field base name => by
    intro hformula
    rw [Expr.isFormula, Bool.and_eq_true] at hformula
    exact (base.readsWithin speak level hformula.1).field hformula.2
  | .method receiver name args => by
    intro hformula
    rw [Expr.isFormula, Bool.and_eq_true, Bool.and_eq_true] at hformula
    exact (receiver.readsWithin speak level hformula.1.1).method hformula.1.2
      (exprTexts_readWithin speak level args hformula.2)
  | .call callee args => by
    intro hformula
    rw [Expr.isFormula, Bool.and_eq_true] at hformula
    exact (callee.readsWithin speak level hformula.1).call
      (exprTexts_readWithin speak level args hformula.2)
  | .await inner => fun hformula => (inner.readsWithin speak level hformula).await
  | .attempt inner => fun hformula => (inner.readsWithin speak level hformula).attempt
  | .text _ | .char _ | .bool _ | .imported _ _ | .traitItem _ _ _ | .turbofish _ _ | .tuple _
  | .closure _ _ _ | .async _ _ | .record _ _ | .invoke _ _ | .block _ | .choose _ _ => nofun

theorem exprTexts_readWithin (speak : Speaker) (level : ℕ) : ∀ es : List Expr,
    areFormulas es = true → List.Forall₂ ReadsWithin es (exprTexts speak level es)
  | [] => fun _ => .nil
  | e :: es => by
    intro hformula
    rw [areFormulas, Bool.and_eq_true] at hformula
    exact .cons (e.readsWithin speak level hformula.1)
      (exprTexts_readWithin speak level es hformula.2)

end

theorem Expr.isGrouped_of_read? {e : Expr} (hformula : e.isFormula = true) {speak : Speaker}
    {level : ℕ} (h : read? (e.layout speak level) = some e) : e.isGrouped = true := by
  obtain ⟨s, hrun, hresult⟩ := Option.bind_eq_some_iff.mp h
  obtain ⟨hopened, x, hoperand, hshrinks⟩ := (e.readsWithin speak level hformula).whole hrun
  have hclose : s.pending.close x = e := by
    simpa [State.result?, hopened, hoperand] using hresult
  rw [hclose] at hshrinks
  exact (hshrinks.cond rfl).1

/-- A formula is read back from its text exactly if no operation in it is referred to and no field
called, and the text of one that is read back is that of no other. -/
theorem formula_read_back_iff_grouped {e : Expr} (hformula : e.isFormula = true) (speak : Speaker)
    (level : ℕ) :
    (read? (e.layout speak level) = some e ↔ e.isGrouped = true) ∧
      (e.isGrouped = true → ∀ e' : Expr, e'.isFormula = true → e'.isGrouped = true →
        e'.layout speak level = e.layout speak level → e' = e) := by
  refine ⟨⟨Expr.isGrouped_of_read? hformula, fun hgrouped =>
    Expr.read?_layout hformula hgrouped speak level⟩, ?_⟩
  intro hgrouped e' hformula' hgrouped' heq
  have hread := Expr.read?_layout hformula' hgrouped' speak level
  rw [heq, Expr.read?_layout hformula hgrouped speak level] at hread
  exact (Option.some.inj hread).symm

/-- A condition of a comparison and a reference, with an argument that is a condition itself. -/
def readyFormula : Expr :=
  let a : Expr := .path "a"
  let b : Expr := .path "b"
  .binary
    (.binary (.ref (.field a "f")) .eq (.attempt (.await (.call a [.binary a .and b, .ref b]))))
    .and (.method (.ref a) "g" [])

theorem readyFormula_is_read_back :
    readyFormula.isFormula = true ∧ readyFormula.isGrouped = true ∧
      ∀ speak level,
        readyFormula.layout speak level = "&a.f == a(a && b, &b).await? && (&a).g()" ∧
          read? (readyFormula.layout speak level) = some readyFormula := by
  have hformula : readyFormula.isFormula = true := by decide +kernel
  have hgrouped : readyFormula.isGrouped = true := by decide +kernel
  refine ⟨hformula, hgrouped, fun speak level => ⟨?_, ?_⟩⟩
  · rfl
  · exact (formula_read_back_iff_grouped hformula speak level).1.mpr hgrouped

/-- A reference of an operation is written like an operation on a reference, and a call of a field
like that of a method, which are what the texts are read as. -/
theorem formulas_share_texts :
    let a : Expr := .path "a"
    let b : Expr := .path "b"
    ∀ pair ∈ [((.ref (.binary a .and b) : Expr), (.binary (.ref a) .and b : Expr)),
        (.call (.field a "f") [], .method a "f" [])],
      pair.1.isFormula = true ∧ pair.2.isFormula = true ∧ pair.1 ≠ pair.2 ∧
        ∀ speak level, pair.1.layout speak level = pair.2.layout speak level ∧
          read? (pair.1.layout speak level) = some pair.2 := by
  intro a b pair hpair
  have hread {e e' : Expr} (hformula : e'.isFormula = true) (hgrouped : e'.isGrouped = true)
      (htext : ∀ speak level, e.layout speak level = e'.layout speak level) (speak : Speaker)
      (level : ℕ) : e.layout speak level = e'.layout speak level ∧
        read? (e.layout speak level) = some e' := by
    refine ⟨htext speak level, ?_⟩
    rw [htext]
    exact Expr.read?_layout hformula hgrouped speak level
  simp only [List.mem_cons, List.not_mem_nil, or_false] at hpair
  rcases hpair with rfl | rfl
  · exact ⟨by decide +kernel, by decide +kernel, nofun,
      hread (by decide +kernel) (by decide +kernel) fun _ _ => rfl⟩
  · exact ⟨by decide +kernel, by decide +kernel, nofun,
      hread (by decide +kernel) (by decide +kernel) fun _ _ => rfl⟩

end Scaffold.Source
