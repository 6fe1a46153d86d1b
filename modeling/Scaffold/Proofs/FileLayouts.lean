import Scaffold.Proofs.Layouts
import Scaffold.Proofs.SpokenNames

/-!
The layout of a file, piece by piece. If its requirements are met, names and paths are words, and so
is whatever a symbol is spoken by; then types and expressions fit into a line, statements and items
stand on lines of their own, and the text has the literals and the documentation of the tree.
-/

namespace Scaffold

namespace Source

open Naming Text

mutual

def Expr.literals : Expr → List Literal
  | .text s => [.text s]
  | .char c => [.char c]
  | .bool _ => []
  | .path _ => []
  | .imported _ _ => []
  | .traitItem _ _ _ => []
  | .turbofish base _ => base.literals
  | .call callee args => callee.literals ++ exprLiterals args
  | .method receiver _ args => receiver.literals ++ exprLiterals args
  | .field base _ => base.literals
  | .ref inner => inner.literals
  | .binary lhs _ rhs => lhs.literals ++ rhs.literals
  | .tuple items => exprLiterals items
  | .closure _ _ body => body.literals
  | .async _ body => stmtLiterals body
  | .await inner => inner.literals
  | .attempt inner => inner.literals
  | .record _ fields => fieldLiterals fields
  | .invoke _ args => exprLiterals args
  | .block body => stmtLiterals body
  | .choose scrutinee arms => scrutinee.literals ++ armLiterals arms

def exprLiterals : List Expr → List Literal
  | [] => []
  | e :: es => e.literals ++ exprLiterals es

def fieldLiterals : List (String × Expr) → List Literal
  | [] => []
  | (_, value) :: fields => value.literals ++ fieldLiterals fields

def armLiterals : List (Arm Expr) → List Literal
  | [] => []
  | ⟨_, _, body⟩ :: arms => body.literals ++ armLiterals arms

def stmtLiterals : List Stmt → List Literal
  | [] => []
  | s :: ss => s.literals ++ stmtLiterals ss

def Stmt.literals : Stmt → List Literal
  | .bind _ _ _ value => value.literals
  | .assign target value => target.literals ++ value.literals
  | .result e => e.literals
  | .comment _ => []
  | .blank => []
  | .loop _ sequence body => sequence.literals ++ stmtLiterals body
  | .guarded condition body => condition.literals ++ stmtLiterals body

end

theorem exprLiterals_eq_flatMap (es : List Expr) : exprLiterals es = es.flatMap Expr.literals := by
  induction es with
  | nil => rfl
  | cons e es ih => rw [exprLiterals, ih, List.flatMap_cons]

theorem exprTexts_eq_map (speak : Speaker) (level : ℕ) (es : List Expr) :
    exprTexts speak level es = es.map fun e => e.layout speak level := by
  induction es with
  | nil => rfl
  | cons e es ih => rw [exprTexts, ih, List.map_cons]

def Function.literals (f : Function) : List Literal := stmtLiterals f.body

mutual

def Item.literals : Item → List Literal
  | .submodule _ _ _ none => []
  | .submodule _ _ _ (some items) => itemLiterals items
  | .struct _ _ _ _ _ _ => []
  | .typeAlias _ _ _ _ _ => []
  | .const _ _ _ _ value => value.literals
  | .trait _ _ _ _ _ => []
  | .impl _ _ _ _ methods => methods.flatMap Function.literals
  | .function f => f.literals

def itemLiterals : List Item → List Literal
  | [] => []
  | i :: is => i.literals ++ itemLiterals is

end

def File.literals (f : File) : List Literal := f.items.flatMap Item.literals

mutual

/-- The entries of the documentation of an item and of its parts, in the order of the text. -/
def Item.docs : Item → List String
  | .submodule doc _ _ none => doc
  | .submodule doc _ _ (some items) => doc ++ itemDocs items
  | .struct doc _ _ _ _ none => doc
  | .struct doc _ _ _ _ (some fields) => doc ++ fields.flatMap Field.doc
  | .typeAlias doc _ _ _ _ => doc
  | .const doc _ _ _ _ => doc
  | .trait doc _ _ _ methods => doc ++ methods.flatMap Signature.doc
  | .impl doc _ _ _ methods => doc ++ methods.flatMap fun f => f.signature.doc
  | .function f => f.signature.doc

def itemDocs : List Item → List String
  | [] => []
  | i :: is => i.docs ++ itemDocs is

end

def File.docs (f : File) : List String := f.doc ++ f.items.flatMap Item.docs

/-- A local name is the name of the symbol or an alias of it. -/
theorem Imports.eq_or_exists_aliasAt {r : Imports} {s : Symbol} {name : String}
    (h : (s, name) ∈ r.assignment.given) :
    name = s.name ∨ ∃ i, name = aliasAt (aliasBase s) i := by
  obtain ⟨before, after, hgiven⟩ := List.append_of_mem h
  rcases r.orderly_assignment.due before _ after hgiven with ⟨-, -, hname⟩ | ⟨-, i, hname, -⟩
  · exact .inl hname
  · exact .inr ⟨i, hname⟩

theorem ne_empty_of_isIdentifier {name : String} (h : isIdentifier name = true) : name ≠ "" := by
  rintro rfl
  cases h

theorem Imports.laid_of_lookup {r : Imports} {s : Symbol} {name : String} (hs : s.Importable)
    (h : r.assignment.given.lookup s = some name) : Laid .ready .inked {} name := by
  obtain ⟨before, after, hgiven, -⟩ := List.lookup_eq_some_iff.mp h
  have hmem : (s, name) ∈ r.assignment.given := by simp [hgiven]
  rcases r.eq_or_exists_aliasAt hmem with rfl | ⟨i, rfl⟩
  · exact .of_isIdentifier hs.2
  · refine .word ?_ fun c hc => .inl (Imports.inSegment_of_mem_aliasAt hs i hc)
    obtain ⟨digits, -, halias⟩ := Imports.exists_toList_aliasAt_eq s i
    intro hempty
    rw [hempty] at halias
    simp [ne_empty_of_isIdentifier hs.2] at halias

/-- Every symbol of the imports is spoken by a word. -/
def Speaker.WordsFor (speak : Speaker) (imports : Imports) : Prop :=
  ∀ s ∈ imports.symbols, Laid .ready .inked {} (speak s)

theorem File.wordsFor_speaker {f : File} (h : ∀ s ∈ f.imports.symbols, s.Importable) :
    f.speaker.WordsFor f.imports := by
  intro s hs
  change Laid _ _ _ ((f.imports.assignment.given.lookup s).getD s.name)
  cases hlookup : f.imports.assignment.given.lookup s with
  | none => exact .of_isIdentifier (h s hs).2
  | some name => exact Imports.laid_of_lookup (h s hs) hlookup

variable {imports : Imports} {speak : Speaker}

mutual

theorem Ty.laid (hspeak : speak.WordsFor imports) : ∀ t : Ty, Met imports t.requirements →
    Laid .operand .inked {} (t.text speak)
  | .named path args => by
    intro hmet
    rw [Ty.requirements, Met.path_iff] at hmet
    exact ((Laid.of_isPath hmet.1).before (tyArgs_laid hspeak args hmet.2)).weaken
  | .imported s args => by
    intro hmet
    rw [Ty.requirements, Met.registered_iff] at hmet
    exact ((hspeak s hmet.1).before (tyArgs_laid hspeak args hmet.2)).weaken
  | .ref inner => fun hmet => ((Laid.lead rfl).before (inner.laid hspeak hmet)).weaken
  | .staticRef inner => by
    intro hmet
    have hlifetime : Laid .ready .operand {} ("&" ++ "'static" ++ " ") :=
      (Laid.lead rfl).before .lifetime |>.before (.joint rfl)
    exact (hlifetime.before (inner.laid hspeak hmet)).weaken
  | .function params result => by
    intro hmet
    rw [Ty.requirements, Met.append_iff] at hmet
    exact ((Laid.lead rfl).before (tyTexts_laid hspeak params hmet.1)
      |>.before (.lead rfl) |>.before (result.laid hspeak hmet.2)).weaken
  | .tuple [] => fun hmet =>
    ((Laid.lead rfl).before (tyTexts_laid hspeak [] hmet) |>.before (.close rfl)).weaken
  | .tuple [item] => by
    intro hmet
    rw [Ty.requirements, tyRequirements, Met.append_iff] at hmet
    exact ((Laid.lead rfl).before (item.laid hspeak hmet.1) |>.before (.close rfl)).weaken
  | .tuple (item :: other :: items) => fun hmet =>
    ((Laid.lead rfl).before (tyTexts_laid hspeak (item :: other :: items) hmet)
      |>.before (.close rfl)).weaken
  | .infer => by
    intro _
    rw [Ty.text]
    exact (Laid.close rfl).weaken
  | .static => fun _ => .lifetime

theorem forall_tyTexts_laid (hspeak : speak.WordsFor imports) : ∀ ts : List Ty,
    Met imports (tyRequirements ts) → ∀ a ∈ tyTexts speak ts, Laid .operand .inked {} a
  | [] => fun _ => nofun
  | t :: ts => by
    intro hmet
    rw [tyRequirements, Met.append_iff] at hmet
    exact List.forall_mem_cons.mpr ⟨t.laid hspeak hmet.1, forall_tyTexts_laid hspeak ts hmet.2⟩

theorem tyTexts_laid (hspeak : speak.WordsFor imports) (ts : List Ty)
    (hmet : Met imports (tyRequirements ts)) :
    Laid .operand .ready {} (commaed (tyTexts speak ts)) := by
  have hrow := @Laid.commaed _ _ (fun _ => {}) id (forall_tyTexts_laid hspeak ts hmet)
  rwa [Content.each_empty, List.map_id] at hrow

theorem tyArgs_laid (hspeak : speak.WordsFor imports) : ∀ args : List Ty,
    Met imports (tyRequirements args) → Laid .inked .inked {} (tyArgs speak args)
  | [] => fun _ => .empty
  | t :: ts => fun hmet =>
    ((Laid.lead rfl).before (tyTexts_laid hspeak (t :: ts) hmet) |>.before (.close rfl)).weaken

end

theorem Param.laid (hspeak : speak.WordsFor imports) {p : Param}
    (hmet : Met imports p.requirements) : Laid .operand .inked {} (p.text speak) := by
  rw [Param.requirements, Met.identifier_iff] at hmet
  have hmut : Laid .ready .ready {} (if p.isMutable then "mut " else "") :=
    .ite (Laid.lead (by decide)).weaken .empty
  exact (hmut.before (.of_isIdentifier hmet.1) |>.before (.joint rfl)
    |>.before (p.ty.laid hspeak hmet.2)).weaken

/-- The parameters between their marks. -/
theorem Param.laid_commaed (hspeak : speak.WordsFor imports) {ps : List Param}
    (hmet : ∀ p ∈ ps, Met imports p.requirements) :
    Laid .operand .ready {} (commaed (ps.map (Param.text speak))) := by
  have hrow := Laid.commaed fun p hp => Param.laid hspeak (hmet p hp)
  rwa [Content.each_empty] at hrow

mutual

theorem Expr.laid (hspeak : speak.WordsFor imports) : ∀ (e : Expr) (level : ℕ),
    Met imports (e.requirements speak) →
      Laid .operand .inked { literals := e.literals } (e.layout speak level)
  | .text s, _, _ => .text s
  | .char c, _, _ => .char c
  | .bool b, _, _ => .ite (Laid.close (by decide)).weaken (Laid.close (by decide)).weaken
  | .path p, _, hmet => (Laid.of_isPath (Met.path_iff.mp hmet).1).weaken
  | .imported s none, _, hmet => (hspeak s (Met.registered_iff.mp hmet).1).weaken
  | .imported s (some member), _, hmet => by
    simp only [Expr.requirements, Met.registered_iff, Option.map_some, Option.toList_some,
      Met.identifier_iff] at hmet
    exact ((hspeak s hmet.1).before (.lead rfl) |>.before (.of_isIdentifier hmet.2.1)).weaken
  | .traitItem selfTy traitTy item, _, hmet => by
    simp only [Expr.requirements, Met.append_iff, Met.identifier_iff] at hmet
    obtain ⟨⟨hself, htrait⟩, hitem, -⟩ := hmet
    exact ((Laid.lead rfl).before (selfTy.laid hspeak hself) |>.before (.joint rfl)
      |>.before (traitTy.laid hspeak htrait) |>.before (.lead rfl)
      |>.before (.of_isIdentifier hitem)).weaken
  | .turbofish base args, level, hmet => by
    simp only [Expr.requirements, Met.append_iff] at hmet
    exact (base.laid hspeak level hmet.1).followed (.lead rfl)
      |>.followed (tyTexts_laid hspeak args hmet.2) |>.followed (.close rfl)
  | .call callee args, level, hmet => by
    simp only [Expr.requirements, Met.append_iff] at hmet
    exact ((callee.laid hspeak level hmet.1).parenthesized callee.isLoose).followed (.lead rfl)
      |>.before (exprTexts_laid hspeak args level hmet.2) |>.followed (.close rfl)
  | .method receiver name args, level, hmet => by
    simp only [Expr.requirements, Met.append_iff, Met.identifier_iff] at hmet
    exact ((receiver.laid hspeak level hmet.1).parenthesized receiver.isLoose).followed (.lead rfl)
      |>.followed (.of_isIdentifier hmet.2.1) |>.followed (.lead rfl)
      |>.before (exprTexts_laid hspeak args level hmet.2.2) |>.followed (.close rfl)
  | .field base name, level, hmet => by
    simp only [Expr.requirements, Met.append_iff, Met.identifier_iff] at hmet
    exact ((base.laid hspeak level hmet.1).parenthesized base.isLoose).followed (.lead rfl)
      |>.followed (.of_isIdentifier hmet.2.1)
  | .ref inner, level, hmet => ((Laid.lead rfl).before (inner.laid hspeak level hmet)).weaken
  | .binary lhs op rhs, level, hmet => by
    simp only [Expr.requirements, Met.append_iff] at hmet
    have hop : Laid .ready .inked {} op.text := by cases op <;> exact .close (by decide)
    have hlhs := (lhs.laid hspeak level hmet.1).parenthesized (lhs.isLooseBeside op)
    exact hlhs.followed (.joint rfl) |>.followed hop |>.followed (.joint rfl)
      |>.before ((rhs.laid hspeak level hmet.2).parenthesized (rhs.isLooseBeside op))
  | .tuple [], level, hmet =>
    ((Laid.lead rfl).before (exprTexts_laid hspeak [] level hmet) |>.followed (.close rfl)).weaken
  | .tuple [item], level, hmet =>
    ((Laid.lead rfl).before (exprTexts_laid hspeak [item] level hmet)
      |>.followed (.close rfl)).weaken
  | .tuple (item :: other :: items), level, hmet =>
    ((Laid.lead rfl).before (exprTexts_laid hspeak (item :: other :: items) level hmet)
      |>.followed (.close rfl)).weaken
  | .closure isMove params body, level, hmet => by
    simp only [Expr.requirements, Met.append_iff, Met.flatMap_iff] at hmet
    have hmove : Laid .ready .ready {} (if isMove then "move " else "") :=
      .ite (Laid.lead (by decide)).weaken .empty
    exact (hmove.before (.lead rfl) |>.before (Param.laid_commaed hspeak hmet.1)
      |>.before (.lead rfl) |>.before (body.laid hspeak level hmet.2)).weaken
  | .async isMove body, level, hmet => by
    have hmove : Laid .operand .operand {} (if isMove then "move " else "") :=
      .ite (Laid.lead (by decide)).weaken .empty
    exact ((Laid.lead rfl).before hmove |>.before (blockText_laid hspeak body level hmet)).weaken
  | .await inner, level, hmet =>
    ((inner.laid hspeak level hmet).parenthesized inner.isLoose).followed (.close rfl)
  | .attempt inner, level, hmet =>
    ((inner.laid hspeak level hmet).parenthesized inner.isLoose).followed (.close rfl)
  | .record ty fields, level, hmet => by
    simp only [Expr.requirements, Met.append_iff, Met.distinct_iff] at hmet
    exact (ty.laid hspeak hmet.1).braces (fieldLines_laid hspeak fields (level + 1) hmet.2.2) level
  | .invoke name args, level, hmet => by
    simp only [Expr.requirements, Met.append_iff] at hmet
    by_cases hvec : (name == "vec") = true
    · cases args with
      | nil =>
        rw [Expr.layout, if_pos hvec]
        exact (Laid.close (by decide)).weaken
      | cons e es =>
        rw [Expr.layout, if_pos hvec]
        · exact ((Laid.line rfl).before (exprLines_laid hspeak (e :: es) (level + 1) hmet.2)
            |>.followed (.pad level) |>.followed (.close rfl)).weaken
        · exact List.cons_ne_nil e es
    · rw [if_neg hvec, Met.path_iff] at hmet
      have htext : (Expr.invoke name args).layout speak level =
          name ++ "!(" ++ commaed (exprTexts speak level args) ++ ")" := by
        cases args <;> simp [Expr.layout, hvec]
      rw [htext]
      exact ((Laid.of_isPath hmet.1.1).before (.lead rfl)
        |>.before (exprTexts_laid hspeak args level hmet.2) |>.followed (.close rfl)).weaken
  | .block body, level, hmet => blockText_laid hspeak body level hmet
  | .choose scrutinee arms, level, hmet => by
    simp only [Expr.requirements, Met.append_iff] at hmet
    have hhead : Laid .ready .inked _ ("match " ++ scrutinee.layout speak level) :=
      (Laid.lead rfl).before (scrutinee.laid hspeak level hmet.1)
    exact hhead.weaken.braces (armLines_laid hspeak arms (level + 1) hmet.2) level

theorem forall_laid (hspeak : speak.WordsFor imports) : ∀ (es : List Expr) (level : ℕ),
    Met imports (exprRequirements speak es) →
      ∀ e ∈ es, Laid .operand .inked { literals := e.literals } (e.layout speak level)
  | [], _, _ => nofun
  | e :: es, level, hmet => by
    rw [exprRequirements, Met.append_iff] at hmet
    exact List.forall_mem_cons.mpr
      ⟨e.laid hspeak level hmet.1, forall_laid hspeak es level hmet.2⟩

theorem exprTexts_laid (hspeak : speak.WordsFor imports) (es : List Expr) (level : ℕ)
    (hmet : Met imports (exprRequirements speak es)) :
    Laid .operand .ready { literals := exprLiterals es } (commaed (exprTexts speak level es)) := by
  have hrow := Laid.commaed (forall_laid hspeak es level hmet)
  rw [exprLiterals_eq_flatMap, exprTexts_eq_map]
  rwa [Content.each_literals] at hrow

theorem exprLines_laid (hspeak : speak.WordsFor imports) : ∀ (es : List Expr) (level : ℕ),
    Met imports (exprRequirements speak es) →
      Laid .fresh .fresh { literals := exprLiterals es } (exprLines speak level es)
  | [], _, _ => .empty
  | e :: es, level, hmet => by
    rw [exprRequirements, Met.append_iff] at hmet
    exact (Laid.pad level).before (e.laid hspeak level hmet.1) |>.followed (.stop rfl)
      |>.before (exprLines_laid hspeak es level hmet.2)

theorem fieldLines_laid (hspeak : speak.WordsFor imports) :
    ∀ (fields : List (String × Expr)) (level : ℕ),
      Met imports (fieldRequirements speak fields) →
        Laid .fresh .fresh { literals := fieldLiterals fields } (fieldLines speak level fields)
  | [], _, _ => .empty
  | (name, value) :: fields, level, hmet => by
    simp only [fieldRequirements, List.cons_append, Met.identifier_iff, Met.append_iff] at hmet
    obtain ⟨hname, hvalue, hfields⟩ := hmet
    have hvalue := value.laid hspeak level hvalue
    have hshown : Laid .operand .inked { literals := value.literals }
        (if value.layout speak level == name then name
          else name ++ ": " ++ value.layout speak level) := by
      split
      · next heq => rwa [beq_iff_eq.mp heq] at hvalue
      · exact ((Laid.of_isIdentifier hname).before (.joint rfl) |>.before hvalue).weaken
    rw [fieldLines]
    exact (Laid.pad level).before hshown |>.followed (.stop (by decide))
      |>.before (fieldLines_laid hspeak fields level hfields)

theorem armLines_laid (hspeak : speak.WordsFor imports) : ∀ (arms : List (Arm Expr)) (level : ℕ),
    Met imports (armRequirements speak arms) →
      Laid .fresh .fresh { literals := armLiterals arms } (armLines speak level arms)
  | [], _, _ => .empty
  | ⟨variant, binding, body⟩ :: arms, level, hmet => by
    simp only [armRequirements, List.cons_append, Met.path_iff, Met.append_iff] at hmet
    obtain ⟨hvariant, ⟨hbinding, hbody⟩, harms⟩ := hmet
    have hline {bound : String} (hbound : Laid .inked .inked {} bound) :
        Laid .fresh .fresh { literals := body.literals ++ armLiterals arms }
          (pad level ++ variant ++ bound ++ " => " ++ body.layout speak level ++ ",\n" ++
            armLines speak level arms) :=
      (Laid.pad level).before (.of_isPath hvariant) |>.before hbound
        |>.before (.joint (by decide)) |>.before (body.laid hspeak level hbody)
        |>.followed (.stop (by decide)) |>.before (armLines_laid hspeak arms level harms)
    cases binding with
    | none =>
      rw [armLines]
      exact hline .empty
    | some name =>
      have hname := Laid.of_isIdentifier (Met.identifier_iff.mp hbinding).1
      rw [armLines]
      exact hline ((Laid.lead rfl).before hname |>.before (.close rfl)).weaken

theorem blockText_laid (hspeak : speak.WordsFor imports) : ∀ (body : List Stmt) (level : ℕ),
    Met imports (stmtRequirements speak body) →
      Laid .operand .inked { literals := stmtLiterals body } (blockText speak level body)
  | [], level, _ => by
    rw [blockText]
    exact (Laid.close (by decide)).weaken
  | s :: ss, level, hmet => by
    rw [stmtRequirements, Met.append_iff] at hmet
    exact ((Laid.line rfl).before (s.laid hspeak (level + 1) hmet.1)
      |>.before (stmtTexts_laid hspeak ss (level + 1) hmet.2) |>.followed (.pad level)
      |>.followed (.close rfl)).weaken

theorem stmtTexts_laid (hspeak : speak.WordsFor imports) : ∀ (ss : List Stmt) (level : ℕ),
    Met imports (stmtRequirements speak ss) →
      Laid .fresh .fresh { literals := stmtLiterals ss } (stmtTexts speak level ss)
  | [], _, _ => .empty
  | s :: ss, level, hmet => by
    rw [stmtRequirements, Met.append_iff] at hmet
    exact (s.laid hspeak level hmet.1).before (stmtTexts_laid hspeak ss level hmet.2)

theorem Stmt.laid (hspeak : speak.WordsFor imports) : ∀ (s : Stmt) (level : ℕ),
    Met imports (s.requirements speak) →
      Laid .fresh .fresh { literals := s.literals } (s.layout speak level)
  | .bind name isMutable ty value, level, hmet => by
    simp only [Stmt.requirements, Met.append_iff, Met.identifier_iff] at hmet
    obtain ⟨hty, hname, hvalue⟩ := hmet
    have hmut : Laid .ready .ready {} (if isMutable then "mut " else "") :=
      .ite (Laid.lead (by decide)).weaken .empty
    have hline {typed : String} (htyped : Laid .inked .inked {} typed) :
        Laid .fresh .fresh { literals := value.literals }
          (pad level ++ "let " ++ (if isMutable then "mut " else "") ++ name ++ typed ++ " = " ++
            value.layout speak level ++ ";\n") :=
      (Laid.pad level).before (.lead (by decide)) |>.before hmut
        |>.before (.of_isIdentifier hname) |>.before htyped |>.before (.joint (by decide))
        |>.before (value.laid hspeak level hvalue) |>.followed (.stop (by decide))
    cases ty with
    | none =>
      rw [Stmt.layout]
      exact hline .empty
    | some ty =>
      rw [Stmt.layout]
      exact hline ((Laid.joint (by decide)).before (ty.laid hspeak hty)).weaken
  | .assign target value, level, hmet => by
    simp only [Stmt.requirements, Met.append_iff] at hmet
    exact (Laid.pad level).before (target.laid hspeak level hmet.1) |>.followed (.joint rfl)
      |>.before (value.laid hspeak level hmet.2) |>.followed (.stop (by decide))
  | .result e, level, hmet =>
    (Laid.pad level).before (e.laid hspeak level hmet) |>.followed .lineEnd
  | .comment text, level, _ => .remark level [text]
  | .blank, _, _ => .newline
  | .loop name sequence body, level, hmet => by
    simp only [Stmt.requirements, List.cons_append, Met.identifier_iff, Met.append_iff] at hmet
    exact (Laid.pad level).before (.lead rfl) |>.before (.of_isIdentifier hmet.1)
      |>.before (.joint rfl) |>.before (sequence.laid hspeak level hmet.2.1)
      |>.followed (.joint rfl) |>.before (blockText_laid hspeak body level hmet.2.2)
      |>.followed .lineEnd
  | .guarded condition body, level, hmet => by
    simp only [Stmt.requirements, Met.append_iff] at hmet
    exact (Laid.pad level).before (.lead rfl) |>.before (condition.laid hspeak level hmet.1)
      |>.followed (.joint rfl) |>.before (blockText_laid hspeak body level hmet.2)
      |>.followed .lineEnd

end

theorem Laid.docLines (level : ℕ) (doc : List String) :
    Laid .fresh .fresh { docs := doc } (docLines level doc) :=
  .doc level (by simp) doc

theorem Laid.visibility (isPublic : Bool) : Laid .ready .ready {} (visibility isPublic) :=
  .ite (Laid.lead (by decide)).weaken .empty

theorem Attr.laid {a : Attr} (hmet : Met imports a.requirements) :
    Laid .ready .inked {} a.text := by
  cases a with
  | derive names =>
    have hnames : ∀ name ∈ names, Laid .operand .inked {} name := by
      intro name hname
      have hpath := hmet (.path name) (List.mem_map_of_mem hname)
      exact (Laid.of_isPath (by simpa [Requirement.defect?] using hpath)).weaken
    have hrow := @Laid.commaed _ _ (fun _ => {}) id hnames
    rw [Content.each_empty, List.map_id] at hrow
    exact (Laid.lead (by decide)).before hrow |>.before (.close (by decide))
  | path p => exact .of_isPath (Met.path_iff.mp hmet).1

theorem Attr.laid_lines (level : ℕ) {attrs : List Attr}
    (hmet : Met imports (attrs.flatMap Attr.requirements)) :
    Laid .fresh .fresh {} (attrLines level attrs) := by
  have hline (a : Attr) (ha : a ∈ attrs) :
      Laid .fresh .fresh {} (pad level ++ "#[" ++ a.text ++ "]\n") :=
    (Laid.pad level).before (.lead (by decide))
      |>.before (Attr.laid (Met.flatMap_iff.mp hmet a ha)) |>.before (.stop (by decide))
  have hrow := Laid.join hline
  rwa [Content.each_empty] at hrow

theorem laid_boundsText (hspeak : speak.WordsFor imports) {bounds : List Ty}
    (hmet : Met imports (tyRequirements bounds)) :
    Laid .inked .inked {} (boundsText speak bounds) := by
  rw [boundsText]
  split
  · exact .empty
  · next hne =>
    have htexts : tyTexts speak bounds ≠ [] := by
      cases bounds with
      | nil => exact absurd rfl hne
      | cons t ts => exact List.cons_ne_nil _ _
    have hsep : Laid .inked .operand {} " + " := (Laid.joint (by decide)).weaken
    have hsum := @Laid.intercalate _ _ _ _ (fun _ => {}) id _ hsep htexts
      (forall_tyTexts_laid hspeak bounds hmet)
    rw [Content.each_empty, List.map_id] at hsum
    exact ((Laid.joint (by decide)).before hsum).weaken

theorem laid_genericsText (hspeak : speak.WordsFor imports) {generics : List Generic}
    (hmet : Met imports (generics.flatMap Generic.requirements)) :
    Laid .inked .inked {} (genericsText speak generics) := by
  have hgeneric (g : Generic) (hg : g ∈ generics) : Laid .operand .inked {} (g.text speak) := by
    have hparts := Met.flatMap_iff.mp hmet g hg
    rw [Generic.requirements, Met.identifier_iff] at hparts
    exact ((Laid.of_isIdentifier hparts.1).before (laid_boundsText hspeak hparts.2)).weaken
  have hrow := Laid.commaed hgeneric
  rw [Content.each_empty] at hrow
  exact .ite .empty ((Laid.lead (by decide)).before hrow |>.before (.close (by decide))).weaken

namespace Signature

theorem laid_preamble {s : Signature} (level : ℕ) (hmet : Met imports s.requirements) :
    Laid .fresh .fresh { docs := s.doc } (s.preamble level) := by
  simp only [requirements, Met.append_iff] at hmet
  exact (Laid.docLines level s.doc).followed (Attr.laid_lines level hmet.1.1.1)

theorem laid_head (hspeak : speak.WordsFor imports) {s : Signature} (level : ℕ)
    (hmet : Met imports s.requirements) : Laid .fresh .inked {} (s.head speak level) := by
  simp only [requirements, Met.append_iff, Met.identifier_iff, Met.flatMap_iff] at hmet
  obtain ⟨⟨⟨-, hparams⟩, hresult⟩, hname, hgenerics⟩ := hmet
  have hasync : Laid .ready .ready {} (if s.isAsync then "async " else "") :=
    .ite (Laid.lead (by decide)).weaken .empty
  have hparts : ∀ a ∈ (s.receiver.map Receiver.text).toList ++ s.params.map (Param.text speak),
      Laid .operand .inked {} a := by
    intro a ha
    rcases List.mem_append.mp ha with ha | ha
    · obtain ⟨r, -, rfl⟩ := Option.map_eq_some_iff.mp (Option.mem_toList.mp ha)
      cases r <;> exact (Laid.close (by decide)).weaken
    · obtain ⟨p, hp, rfl⟩ := List.mem_map.mp ha
      exact Param.laid hspeak (hparams p hp)
  have hrow := @Laid.commaed _ _ (fun _ => {}) id hparts
  rw [Content.each_empty, List.map_id] at hrow
  have hline {result : String} (h : Laid .inked .inked {} result) :
      Laid .fresh .inked {} (pad level ++ visibility s.isPublic ++
        (if s.isAsync then "async " else "") ++ "fn " ++ s.name ++ genericsText speak s.generics ++
        "(" ++ commaed ((s.receiver.map Receiver.text).toList ++ s.params.map (Param.text speak)) ++
        ")" ++ result) :=
    (Laid.pad level).before (.visibility s.isPublic) |>.before hasync
      |>.before (.lead (by decide)) |>.before (.of_isIdentifier hname)
      |>.before (laid_genericsText hspeak (Met.flatMap_iff.mpr hgenerics))
      |>.before (.lead (by decide)) |>.before hrow |>.before (.close (by decide)) |>.before h
  rw [head]
  apply hline
  split
  · next ty hty =>
    rw [hty] at hresult
    exact ((Laid.joint (by decide)).before (ty.laid hspeak hresult)).weaken
  · exact .empty

end Signature

theorem Function.laid (hspeak : speak.WordsFor imports) {f : Function} (level : ℕ)
    (hmet : Met imports (f.requirements speak)) :
    Laid .fresh .fresh { literals := f.literals, docs := f.signature.doc }
      (f.layout speak level) := by
  rw [Function.requirements, Met.append_iff] at hmet
  have hhead := (f.signature.laid_preamble level hmet.1).followed
    (f.signature.laid_head hspeak level hmet.1)
  exact ((hhead.followed (.joint (by decide))).before
    (blockText_laid hspeak f.body level hmet.2) |>.followed .lineEnd).of_eq
      (Content.docs_append _ _)

theorem Field.laid (hspeak : speak.WordsFor imports) {f : Field} (level : ℕ)
    (hmet : Met imports f.requirements) :
    Laid .fresh .fresh { docs := f.doc } (f.layout speak level) := by
  rw [Field.requirements, Met.identifier_iff] at hmet
  exact (Laid.docLines level f.doc).followed (.pad level) |>.followed (.visibility f.isPublic)
    |>.followed (.of_isIdentifier hmet.1) |>.followed (.joint (by decide))
    |>.followed (f.ty.laid hspeak hmet.2) |>.followed (.stop (by decide))

theorem laid_implHead (hspeak : speak.WordsFor imports) {generics : List Generic}
    (hgenerics : Met imports (generics.flatMap Generic.requirements)) {traitTy : Option Ty}
    (htrait : ∀ t, traitTy = some t → Met imports t.requirements) {selfTy : Ty}
    (hself : Met imports selfTy.requirements) :
    Laid .ready .inked {} (implHead speak generics traitTy selfTy) := by
  have hhead : Laid .ready .operand {} ("impl" ++ genericsText speak generics ++ " ") :=
    (Laid.close (by decide)).before (laid_genericsText hspeak hgenerics)
      |>.before (.joint (by decide))
  cases traitTy with
  | none =>
    have hempty : Laid .operand .operand {} "" := .empty
    exact hhead.before hempty |>.before (selfTy.laid hspeak hself)
  | some t =>
    have hfor : Laid .operand .operand {} (t.text speak ++ " for ") :=
      (t.laid hspeak (htrait t rfl)).before (.joint (by decide))
    exact hhead.before hfor |>.before (selfTy.laid hspeak hself)

mutual

theorem Item.laid (hspeak : speak.WordsFor imports) : ∀ (i : Item) (level : ℕ),
    Met imports (i.requirements speak) →
      Laid .fresh .fresh { literals := i.literals, docs := i.docs } (i.layout speak level)
  | .submodule doc isPublic name none, level, hmet =>
    (Laid.docLines level doc).followed (.pad level) |>.followed (.visibility isPublic)
      |>.followed (.lead (by decide))
      |>.followed (.of_isIdentifier (Met.identifier_iff.mp hmet).1)
      |>.followed (.stop (by decide))
  | .submodule doc isPublic name (some items), level, hmet => by
    rw [Item.requirements, Met.identifier_iff] at hmet
    exact (Laid.docLines level doc).followed (.pad level)
      |>.followed (.visibility isPublic) |>.followed (.lead (by decide))
      |>.followed (.of_isIdentifier hmet.1) |>.followed (.stop (by decide))
      |>.before (itemTexts_laid hspeak items (level + 1) hmet.2) |>.followed (.pad level)
      |>.followed (.line (by decide))
  | .struct doc attrs isPublic name generics fields, level, hmet => by
    simp only [Item.requirements, List.append_assoc, List.cons_append, Met.append_iff,
      Met.identifier_iff] at hmet
    obtain ⟨hattrs, hname, hgenerics, hfields⟩ := hmet
    have hhead : Laid .fresh .inked { docs := doc } (docLines level doc ++ attrLines level attrs ++
        pad level ++ visibility isPublic ++ "struct " ++ name ++ genericsText speak generics) :=
      (Laid.docLines level doc).followed (Attr.laid_lines level hattrs)
        |>.followed (.pad level) |>.followed (.visibility isPublic)
        |>.followed (.lead (by decide)) |>.followed (.of_isIdentifier hname)
        |>.followed (laid_genericsText hspeak hgenerics)
    cases fields with
    | none =>
      have hend : Laid .written .fresh {} ";\n" := .stop (by decide)
      exact hhead.followed hend
    | some fields =>
      rw [Met.distinct_iff] at hfields
      have hlines := Laid.join fun f hf =>
        Field.laid hspeak (level + 1) (Met.flatMap_iff.mp hfields.2 f hf)
      rw [Content.each_docs] at hlines
      have hbody : Laid .written .fresh { docs := fields.flatMap Field.doc } (" \x7b\n" ++
          String.join (fields.map (Field.layout speak (level + 1))) ++ pad level ++ "\x7d\n") :=
        (Laid.stop (by decide)).before hlines |>.followed (.pad level)
          |>.followed (.line (by decide))
      exact hhead.before hbody
  | .typeAlias doc isPublic name generics ty, level, hmet => by
    simp only [Item.requirements, List.cons_append, Met.append_iff, Met.identifier_iff] at hmet
    obtain ⟨hname, hgenerics, hty⟩ := hmet
    exact (Laid.docLines level doc).followed (.pad level)
      |>.followed (.visibility isPublic) |>.followed (.lead (by decide))
      |>.followed (.of_isIdentifier hname) |>.followed (laid_genericsText hspeak hgenerics)
      |>.followed (.joint (by decide)) |>.followed (ty.laid hspeak hty)
      |>.followed (.stop (by decide))
  | .const doc isPublic name ty value, level, hmet => by
    simp only [Item.requirements, List.cons_append, Met.append_iff, Met.identifier_iff] at hmet
    obtain ⟨hname, hty, hvalue⟩ := hmet
    have hhead : Laid .fresh .operand { docs := doc } (docLines level doc ++ pad level ++
        visibility isPublic ++ "const " ++ name ++ ": " ++ ty.text speak ++ " = ") :=
      (Laid.docLines level doc).followed (.pad level)
        |>.followed (.visibility isPublic) |>.followed (.lead (by decide))
        |>.followed (.of_isIdentifier hname) |>.followed (.joint (by decide))
        |>.followed (ty.laid hspeak hty) |>.followed (.joint (by decide))
    exact ((hhead.before (value.laid hspeak level hvalue)).followed (.stop (by decide))).of_eq
      (Content.docs_append _ _)
  | .trait doc isPublic name supertraits methods, level, hmet => by
    simp only [Item.requirements, List.cons_append, Met.append_iff, Met.distinct_iff,
      Met.identifier_iff, Met.flatMap_iff] at hmet
    obtain ⟨-, hbounds, hname, hmethods⟩ := hmet
    have hhead : Laid .fresh .inked {} (pad level ++ visibility isPublic ++ "trait " ++ name ++
        boundsText speak supertraits) :=
      (Laid.pad level).before (.visibility isPublic) |>.before (.lead (by decide))
        |>.before (.of_isIdentifier hname) |>.before (laid_boundsText hspeak hbounds)
    have hmethod (s : Signature) (hs : s ∈ methods) : Laid .fresh .fresh { docs := s.doc }
        (s.preamble (level + 1) ++ s.head speak (level + 1) ++ ";\n") :=
      (s.laid_preamble (level + 1) (hmethods s hs)).followed
        (s.laid_head hspeak (level + 1) (hmethods s hs)) |>.followed (.stop (by decide))
    have hbody := Laid.braced level hhead hmethod
    rw [Content.each_docs] at hbody
    exact (Laid.docLines level doc).before hbody
  | .impl doc generics traitTy selfTy methods, level, hmet => by
    simp only [Item.requirements, List.append_assoc, Met.append_iff, Met.distinct_iff,
      Met.flatMap_iff] at hmet
    obtain ⟨hself, hgenerics, htrait, -, hmethods⟩ := hmet
    have hsome : ∀ t, traitTy = some t → Met imports t.requirements := by
      rintro t rfl
      exact htrait
    have hhead : Laid .fresh .inked {} (pad level ++ implHead speak generics traitTy selfTy) :=
      (Laid.pad level).before (laid_implHead hspeak (Met.flatMap_iff.mpr hgenerics) hsome hself)
    have hmethod (f : Function) (hf : f ∈ methods) := f.laid hspeak (level + 1) (hmethods f hf)
    exact (Laid.docLines level doc).before (Laid.braced level hhead hmethod)
  | .function f, level, hmet => f.laid hspeak level hmet

theorem itemTexts_laid (hspeak : speak.WordsFor imports) : ∀ (items : List Item) (level : ℕ),
    Met imports (itemRequirements speak items) →
      Laid .fresh .fresh { literals := itemLiterals items, docs := itemDocs items }
        (itemTexts speak level items)
  | [], _, _ => .empty
  | i :: items, level, hmet => by
    rw [itemRequirements, Met.append_iff] at hmet
    exact (i.laid hspeak level hmet.1).before (itemTexts_laid hspeak items level hmet.2)

end

namespace Imports

theorem laid_useLine {s : Symbol} (h : s.Importable) {name : String}
    (hname : Laid .ready .inked {} name) : Laid .fresh .inked {} (useLine s name) := by
  have hpath : Laid .ready .inked {} s.fullPath :=
    (Laid.of_isPath h.1).before (.lead (by decide)) |>.before (.of_isIdentifier h.2)
  have hplain : Laid .ready .inked {} ("use " ++ s.fullPath ++ ";") :=
    (Laid.lead (by decide)).before hpath |>.before (.close (by decide))
  have halias : Laid .ready .inked {} ("use " ++ s.fullPath ++ " as " ++ name ++ ";") :=
    (Laid.lead (by decide)).before hpath |>.before (.joint (by decide)) |>.before hname
      |>.before (.close (by decide))
  exact .ite hplain.weaken halias.weaken

theorem laid_useLines {r : Imports} (h : ∀ s ∈ r.symbols, s.Importable) :
    Laid .fresh .fresh {} (String.join (r.useLines.map (· ++ "\n"))) := by
  have hline (line : String) (hline : line ∈ r.useLines) :
      Laid .fresh .fresh {} (line ++ "\n") := by
    rw [r.useLines_eq_map] at hline
    obtain ⟨p, hp, rfl⟩ := List.mem_map.mp hline
    have hlocal : p ∈ r.localNames := r.perm_inLineOrder.subset hp
    simp only [localNames, List.mem_filterMap, Option.map_eq_some_iff] at hlocal
    obtain ⟨s, hs, name, hlookup, rfl⟩ := hlocal
    exact (laid_useLine (h s hs) (laid_of_lookup (h s hs) hlookup)).before .lineEnd
  have hrow := Laid.join hline
  rwa [Content.each_empty] at hrow

end Imports

/-- The text of a file stands on lines of its own and holds what the file does. -/
theorem File.laid {f : File} (hmet : Met f.imports f.requirements) :
    Laid .fresh .fresh { literals := f.literals, docs := f.docs } f.layout := by
  rw [requirements, Met.append_iff] at hmet
  have himportable : ∀ s ∈ f.imports.symbols, s.Importable := by
    intro s hs
    simpa [Symbol.Importable] using Met.flatMap_iff.mp hmet.1 s hs
  have hdoc : Laid .fresh .fresh { docs := f.doc } (commentLines 0 "//!" f.doc) :=
    .doc 0 (by simp) f.doc
  have hitem (i : Item) (hi : i ∈ f.items) :=
    i.laid (wordsFor_speaker himportable) 0 (met_itemRequirements_iff.mp hmet.2 i hi)
  exact (hdoc.leading.followed (Imports.laid_useLines himportable).leading).before
    (Laid.spaced hitem)

theorem File.laid_of_render {f : File} {text : String} (h : f.render = .ok text) :
    Laid .fresh .fresh { literals := f.literals, docs := f.docs } text := by
  have hlaid := File.laid ((File.render_ok_iff f).mp ⟨text, h⟩)
  unfold render at h
  split at h
  · cases h
  · rwa [Except.ok.inj h] at hlaid

end Source

end Scaffold
