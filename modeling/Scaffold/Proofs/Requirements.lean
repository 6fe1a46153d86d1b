import Scaffold.Proofs.Identifiers
import Scaffold.Source.Noted
import Scaffold.Source.Requirement

/-!
When a source tree has a text. A file is rendered exactly if each of its requirements is met, and a
list of requirements is met part by part, so the walk over a tree splits along the tree.
-/

namespace Scaffold

namespace Naming

theorem pathPieces_cons {c : Char} {cs piece : List Char} {pieces : List (List Char)}
    (hc : c ≠ ':') (h : Text.pathPieces cs = piece :: pieces) :
    Text.pathPieces (c :: cs) = (c :: piece) :: pieces := by
  rw [Text.pathPieces.eq_3 c cs fun _ heq => absurd heq hc, h]

theorem pathPieces_of_not_mem {cs : List Char} (h : ':' ∉ cs) : Text.pathPieces cs = [cs] := by
  induction cs with
  | nil => rfl
  | cons c cs ih =>
    obtain ⟨hc, hcs⟩ := not_or.mp (mt List.mem_cons.mpr h)
    exact pathPieces_cons (Ne.symm hc) (ih hcs)

theorem pathPieces_append {cs : List Char} (rest : List Char) (h : ':' ∉ cs) :
    Text.pathPieces (cs ++ ':' :: ':' :: rest) = cs :: Text.pathPieces rest := by
  induction cs with
  | nil => rfl
  | cons c cs ih =>
    obtain ⟨hc, hcs⟩ := not_or.mp (mt List.mem_cons.mpr h)
    exact pathPieces_cons (Ne.symm hc) (ih hcs)

theorem not_mem_colon_of_isWord {cs : List Char} (h : isWord cs = true) : ':' ∉ cs := by
  cases cs with
  | nil => simp
  | cons c cs =>
    intro hmem
    exact absurd (((isWord_cons_iff c cs).mp h).2.1 ':' hmem) (by decide)

theorem not_mem_colon_of_isIdentifier {name : String} (h : isIdentifier name = true) :
    ':' ∉ name.toList := by
  unfold isIdentifier at h
  split at h
  · next bare hraw =>
    rw [Bool.and_eq_true] at h
    have hbare := not_mem_colon_of_isWord h.1
    simp [hraw, hbare]
  · rw [Bool.and_eq_true] at h
    exact not_mem_colon_of_isWord h.1

/-- An identifier is a path of one segment. -/
@[simp] theorem isPath_of_isIdentifier {name : String} (h : isIdentifier name = true) :
    isPath name = true := by
  simp only [isPath, Text.splitPath, pathPieces_of_not_mem (not_mem_colon_of_isIdentifier h),
    List.map_cons, List.map_nil, List.all_cons, List.all_nil, String.ofList_toList, h]
  simp

/-- An identifier in front of a path makes a path. -/
theorem isPath_append {name rest : String} (h : isIdentifier name = true)
    (hrest : isPath rest = true) : isPath (name ++ "::" ++ rest) = true := by
  have hlist : (name ++ "::" ++ rest).toList = name.toList ++ ':' :: ':' :: rest.toList := by
    simp
  have hpieces := pathPieces_append rest.toList (not_mem_colon_of_isIdentifier h)
  simp only [isPath, Text.splitPath] at hrest ⊢
  simp only [hlist, hpieces, List.map_cons, List.all_cons, String.ofList_toList, h, hrest]
  simp

end Naming

namespace Source

/-- All requirements of a list hold for the imports. -/
def Met (imports : Imports) (requirements : List Requirement) : Prop :=
  ∀ q ∈ requirements, q.defect? imports = none

namespace Met

variable {imports : Imports} {qs rs : List Requirement}

@[simp] theorem nil_iff : Met imports [] ↔ True := by
  simp [Met]

@[simp] theorem append_iff : Met imports (qs ++ rs) ↔ Met imports qs ∧ Met imports rs := by
  simp [Met, or_imp, forall_and]

@[simp] theorem flatMap_iff {α : Type} {xs : List α} {f : α → List Requirement} :
    Met imports (xs.flatMap f) ↔ ∀ x ∈ xs, Met imports (f x) := by
  simp only [Met, List.mem_flatMap]
  exact ⟨fun h x hx q hq => h q ⟨x, hx, hq⟩, fun h q ⟨x, hx, hq⟩ => h x hx q hq⟩

@[simp] theorem identifier_iff {name : String} :
    Met imports (.identifier name :: qs) ↔ Naming.isIdentifier name = true ∧ Met imports qs := by
  simp [Met, Requirement.defect?]

@[simp] theorem path_iff {path : String} :
    Met imports (.path path :: qs) ↔ Naming.isPath path = true ∧ Met imports qs := by
  simp [Met, Requirement.defect?]

@[simp] theorem registered_iff {s : Symbol} :
    Met imports (.registered s :: qs) ↔ s ∈ imports.symbols ∧ Met imports qs := by
  simp [Met, Requirement.defect?]

@[simp] theorem distinct_iff {owner : String} {members : List String} :
    Met imports (.distinct owner members :: qs) ↔ members.Nodup ∧ Met imports qs := by
  simp [Met, Requirement.defect?, firstRepeat?_eq_none_iff]

end Met

attribute [simp] Ty.requirements tyRequirements Param.requirements Expr.requirements
  exprRequirements fieldRequirements armRequirements stmtRequirements Stmt.requirements
  Generic.requirements Attr.requirements Field.requirements Item.requirements

@[simp] theorem Ty.requirements_plain (name : String) :
    (Ty.plain name).requirements = [.path name] := rfl

@[simp] theorem Ty.requirements_ofSymbol (s : Symbol) :
    (Ty.ofSymbol s).requirements = [.registered s] := rfl

@[simp] theorem Expr.requirements_ofSymbol (speak : Speaker) (s : Symbol) :
    (Expr.ofSymbol s).requirements speak = [.registered s] := rfl

@[simp] theorem Expr.requirements_ofMember (speak : Speaker) (s : Symbol) (member : String) :
    (Expr.ofMember s member).requirements speak = [.registered s, .identifier member] := rfl

@[simp] theorem Stmt.requirements_define (speak : Speaker) (name : String) (value : Expr) :
    (Stmt.define name value).requirements speak =
      .identifier name :: value.requirements speak := rfl

theorem stmtRequirements_append (speak : Speaker) (ss ts : Block) :
    stmtRequirements speak (ss ++ ts) = stmtRequirements speak ss ++ stmtRequirements speak ts := by
  induction ss with
  | nil => rfl
  | cons s ss ih => simp [ih]

/-- A comment requires nothing. -/
@[simp] theorem stmtRequirements_comments_append (speak : Speaker) (lines : List String)
    (rest : Block) :
    stmtRequirements speak (Stmt.comments lines ++ rest) = stmtRequirements speak rest := by
  rw [stmtRequirements_append]
  induction lines with
  | nil => rfl
  | cons line lines ih => simpa [Stmt.comments] using ih

/-- A list made from entries is met if it is met for every entry. -/
@[simp] theorem met_exprRequirements_map {α : Type} {imports : Imports} {speak : Speaker}
    {xs : List α} {f : α → Expr} :
    Met imports (exprRequirements speak (xs.map f)) ↔
      ∀ x ∈ xs, Met imports ((f x).requirements speak) := by
  induction xs with
  | nil => simp
  | cons x xs ih => simp [ih]

/-- The symbol can stand in an import line. -/
def Symbol.Importable (s : Symbol) : Prop :=
  Naming.isPath s.path = true ∧ Naming.isIdentifier s.name = true

instance : DecidablePred Symbol.Importable := fun _ => inferInstanceAs (Decidable (_ ∧ _))

theorem mem_foldl_register (symbols : List Symbol) (imports : Imports) (s : Symbol) :
    s ∈ (symbols.foldl Imports.register imports).symbols ↔ s ∈ symbols ∨ s ∈ imports.symbols := by
  induction symbols generalizing imports with
  | nil => simp
  | cons t ts ih =>
    rw [List.foldl_cons, ih, Imports.register, mem_insertSorted, List.mem_cons]
    tauto

theorem symbols_foldl_reserve (declared : List String) (imports : Imports) :
    (declared.foldl Imports.reserve imports).symbols = imports.symbols := by
  induction declared generalizing imports with
  | nil => rfl
  | cons name names ih => exact ih (imports.reserve name)

/-- The symbols of imports made from a list are those of the list. -/
@[simp] theorem mem_symbols_ofLists (symbols : List Symbol) (declared : List String) (s : Symbol) :
    s ∈ (Imports.ofLists symbols declared).symbols ↔ s ∈ symbols := by
  rw [Imports.ofLists, symbols_foldl_reserve, mem_foldl_register]
  simp

theorem reserved_foldl_register (symbols : List Symbol) (imports : Imports) :
    (symbols.foldl Imports.register imports).reserved = imports.reserved := by
  induction symbols generalizing imports with
  | nil => rfl
  | cons s ss ih => exact ih (imports.register s)

theorem mem_foldl_reserve (declared : List String) (imports : Imports) (name : String) :
    name ∈ (declared.foldl Imports.reserve imports).reserved ↔
      name ∈ declared ∨ name ∈ imports.reserved := by
  induction declared generalizing imports with
  | nil => simp
  | cons n ns ih =>
    rw [List.foldl_cons, ih, Imports.reserve, mem_insertSorted, List.mem_cons]
    tauto

/-- The reserved names of imports made from a list are the declared ones. -/
theorem mem_reserved_ofLists (symbols : List Symbol) (declared : List String) (name : String) :
    name ∈ (Imports.ofLists symbols declared).reserved ↔ name ∈ declared := by
  rw [Imports.ofLists, mem_foldl_reserve, reserved_foldl_register]
  simp

@[simp] theorem met_itemRequirements_iff {imports : Imports} {speak : Speaker} {items : List Item} :
    Met imports (itemRequirements speak items) ↔
      ∀ i ∈ items, Met imports (i.requirements speak) := by
  induction items with
  | nil => simp [itemRequirements]
  | cons i is ih => simp [itemRequirements, ih]

/-- A file has a text exactly if all its requirements hold. -/
theorem File.render_ok_iff (f : File) :
    (∃ text, f.render = .ok text) ↔ Met f.imports f.requirements := by
  have hdefect : f.defect? = none ↔ Met f.imports f.requirements := by
    rw [File.defect?, List.findSome?_eq_none_iff, Met]
  rw [← hdefect, File.render]
  cases f.defect? <;> simp

@[simp] theorem flatMap_subset_iff {α β : Type} {f : α → List β} {xs : List α} {ys : List β} :
    xs.flatMap f ⊆ ys ↔ ∀ x ∈ xs, f x ⊆ ys := by
  simp only [List.subset_def, List.mem_flatMap]
  grind

/-- What a part notes can be imported. -/
def Noted.Importable {α : Type} (x : Noted α) : Prop := ∀ s ∈ x.symbols, s.Importable

namespace Noted

variable {α β : Type} {s : Symbol}

@[simp] theorem importable_pure (a : α) : (pure a : Noted α).Importable := by
  simp [Importable, symbols]

@[simp] theorem importable_bind {x : Noted α} {f : α → Noted β} :
    (x >>= f).Importable ↔ x.Importable ∧ (f x.value).Importable := by
  simp [Importable, symbols, or_imp, forall_and]
  tauto

@[simp] theorem importable_map {x : Noted α} {g : α → β} :
    (g <$> x).Importable ↔ x.Importable := by
  simp [Importable, symbols]

@[simp] theorem importable_each {f : α → Noted β} {xs : List α} :
    (each f xs).Importable ↔ ∀ x ∈ xs, (f x).Importable := by
  simp only [Importable, symbols, spoken_each, lent_each, List.mem_append, List.mem_flatMap]
  grind

@[simp] theorem importable_ty {args : List Ty} : (s.ty args).Importable ↔ s.Importable := by
  simp [Importable, symbols]

@[simp] theorem importable_expr : s.expr.Importable ↔ s.Importable := by
  simp [Importable, symbols]

@[simp] theorem importable_member {name : String} :
    (s.member name).Importable ↔ s.Importable := by
  simp [Importable, symbols]

@[simp] theorem importable_lend : s.lend.Importable ↔ s.Importable := by
  simp [Importable, symbols]

end Noted

/-- What a part notes can be imported, and it requires no symbol but those that it speaks of. -/
structure Noted.Sound {α : Type} (requirements : Speaker → α → List Requirement) (x : Noted α) :
    Prop where
  importable : x.Importable
  met : ∀ (imports : Imports) (speak : Speaker), x.spoken ⊆ imports.symbols →
    Met imports (requirements speak x.value)

/-- A file of sound items has a text, whatever names it declares. -/
theorem File.renders_of_sound {items : List (Noted Item)} (doc declared : List String)
    (h : ∀ x ∈ items, x.Sound Item.requirements) :
    ∃ text, (File.ofNoted doc declared items).render = .ok text := by
  have hmem (s : Symbol) :
      s ∈ (File.ofNoted doc declared items).imports.symbols ↔ ∃ x ∈ items, s ∈ x.symbols := by
    rw [File.ofNoted, mem_symbols_ofLists, List.mem_flatMap]
  refine (File.render_ok_iff _).mpr (Met.append_iff.mpr ⟨?_, ?_⟩)
  · apply Met.flatMap_iff.mpr
    intro s hs
    obtain ⟨x, hx, hsymbol⟩ := (hmem s).mp hs
    have himportable := (h x hx).importable s hsymbol
    simp [himportable.1, himportable.2]
  · refine met_itemRequirements_iff.mpr (List.forall_mem_map.mpr fun x hx => ?_)
    exact (h x hx).met _ _ fun s hs => (hmem s).mpr ⟨x, hx, List.mem_append_left _ hs⟩

end Source

end Scaffold
