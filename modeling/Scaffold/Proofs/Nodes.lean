import Scaffold.Proofs.Requirements

/-!
The nodes of a source tree: whatever in it has parts or names of its own. A node says which names it
holds in the position of an identifier or of a path, which symbol it speaks of, and which members it
lists, all for itself and without its parts. What a tree requires is what its nodes say, so no part
of it is passed over.
-/

namespace Scaffold.Source

inductive Node where
  | ty (t : Ty)
  | expr (e : Expr)
  | arm (a : Arm Expr)
  | stmt (s : Stmt)
  | param (p : Param)
  | generic (g : Generic)
  | attr (a : Attr)
  | signature (s : Signature)
  | function (f : Function)
  | field (f : Field)
  | item (i : Item)

namespace Node

/-- The nodes right below a node, in the order of the tree. -/
def parts : Node → List Node
  | ty (.named _ args) => args.map ty
  | ty (.imported _ args) => args.map ty
  | ty (.ref inner) => [ty inner]
  | ty (.staticRef inner) => [ty inner]
  | ty (.function params result) => params.map ty ++ [ty result]
  | ty (.tuple items) => items.map ty
  | ty .infer => []
  | ty .static => []
  | expr (.text _) => []
  | expr (.char _) => []
  | expr (.bool _) => []
  | expr (.path _) => []
  | expr (.imported _ _) => []
  | expr (.traitItem selfTy traitTy _) => [ty selfTy, ty traitTy]
  | expr (.turbofish base args) => expr base :: args.map ty
  | expr (.call callee args) => expr callee :: args.map expr
  | expr (.method receiver _ args) => expr receiver :: args.map expr
  | expr (.field base _) => [expr base]
  | expr (.ref inner) => [expr inner]
  | expr (.binary lhs _ rhs) => [expr lhs, expr rhs]
  | expr (.tuple items) => items.map expr
  | expr (.closure _ params body) => params.map param ++ [expr body]
  | expr (.async _ body) => body.map stmt
  | expr (.await inner) => [expr inner]
  | expr (.attempt inner) => [expr inner]
  | expr (.record t fields) => ty t :: fields.map fun f => expr f.2
  | expr (.invoke _ args) => args.map expr
  | expr (.block body) => body.map stmt
  | expr (.choose scrutinee arms) => expr scrutinee :: arms.map arm
  | arm a => [expr a.body]
  | stmt (.bind _ _ t value) => (t.map ty).toList ++ [expr value]
  | stmt (.assign target value) => [expr target, expr value]
  | stmt (.result e) => [expr e]
  | stmt (.comment _) => []
  | stmt .blank => []
  | stmt (.loop _ sequence body) => expr sequence :: body.map stmt
  | stmt (.guarded condition body) => expr condition :: body.map stmt
  | param p => [ty p.ty]
  | generic g => g.bounds.map ty
  | attr _ => []
  | signature s =>
    s.attrs.map attr ++ s.generics.map generic ++ s.params.map param ++ (s.result.map ty).toList
  | function f => signature f.signature :: f.body.map stmt
  | field f => [ty f.ty]
  | item (.submodule _ _ _ body) => (body.getD []).map item
  | item (.struct _ attrs _ _ generics fields) =>
    attrs.map attr ++ generics.map generic ++ (fields.getD []).map field
  | item (.typeAlias _ _ _ generics t) => generics.map generic ++ [ty t]
  | item (.const _ _ _ t value) => [ty t, expr value]
  | item (.trait _ _ _ supertraits methods) => supertraits.map ty ++ methods.map signature
  | item (.impl _ generics traitTy selfTy methods) =>
    generics.map generic ++ (traitTy.map ty).toList ++ [ty selfTy] ++ methods.map function
  | item (.function f) => [function f]

/-- The names that the node itself holds where an identifier must stand. -/
def identifiers : Node → List String
  | expr (.imported _ member) => member.toList
  | expr (.traitItem _ _ name) => [name]
  | expr (.method _ name _) => [name]
  | expr (.field _ name) => [name]
  | expr (.record _ fields) => fields.map (·.1)
  | arm a => a.binding.toList
  | stmt (.bind name _ _ _) => [name]
  | stmt (.loop name _ _) => [name]
  | param p => [p.name]
  | generic g => [g.name]
  | signature s => [s.name]
  | field f => [f.name]
  | item (.submodule _ _ name _) => [name]
  | item (.struct _ _ _ name _ _) => [name]
  | item (.typeAlias _ _ name _ _) => [name]
  | item (.const _ _ name _ _) => [name]
  | item (.trait _ _ name _ _) => [name]
  | _ => []

/-- The names that the node itself holds where a path must stand. The macro that makes a list is
spoken by a word of the language. -/
def paths : Node → List String
  | ty (.named p _) => [p]
  | expr (.path p) => [p]
  | expr (.invoke name _) => if name == "vec" then [] else [name]
  | arm a => [a.variant]
  | attr (.derive names) => names
  | attr (.path p) => [p]
  | _ => []

/-- The symbol that the node itself speaks of. -/
def symbol? : Node → Option Symbol
  | ty (.imported s _) => some s
  | expr (.imported s _) => some s
  | _ => none

/-- The names of the members that the node itself lists. -/
def members? : Node → Option (List String)
  | expr (.record _ fields) => some (fields.map (·.1))
  | item (.struct _ _ _ _ _ fields) => fields.map (·.map (·.name))
  | item (.trait _ _ _ _ methods) => some (methods.map (·.name))
  | item (.impl _ _ _ _ methods) => some (methods.map (·.signature.name))
  | _ => none

/-- What the members are reported to belong to. -/
def owner (speak : Speaker) : Node → String
  | expr (.record t _) => t.text speak
  | item (.struct _ _ _ name _ _) => name
  | item (.trait _ _ name _ _) => name
  | item (.impl _ generics traitTy selfTy _) => implHead speak generics traitTy selfTy
  | _ => ""

/-- What the node requires for itself. -/
def own (speak : Speaker) (n : Node) : List Requirement :=
  n.identifiers.map .identifier ++ n.paths.map .path ++ (n.symbol?.map .registered).toList ++
    (n.members?.map (.distinct (n.owner speak))).toList

/-- What the node and all below it require. -/
def requirements (speak : Speaker) : Node → List Requirement
  | ty t => t.requirements
  | expr e => e.requirements speak
  | arm a => armRequirements speak [a]
  | stmt s => s.requirements speak
  | param p => p.requirements
  | generic g => g.requirements
  | attr a => a.requirements
  | signature s => s.requirements
  | function f => f.requirements speak
  | field f => f.requirements
  | item i => i.requirements speak

end Node

section Lists

variable {speak : Speaker} {q : Requirement}

theorem mem_tyRequirements_iff {ts : List Ty} :
    q ∈ tyRequirements ts ↔ ∃ t ∈ ts, q ∈ t.requirements := by
  induction ts with
  | nil => simp
  | cons t ts ih => simp [ih]

theorem mem_exprRequirements_iff {es : List Expr} :
    q ∈ exprRequirements speak es ↔ ∃ e ∈ es, q ∈ e.requirements speak := by
  induction es with
  | nil => simp
  | cons e es ih => simp [ih]

theorem mem_stmtRequirements_iff {ss : List Stmt} :
    q ∈ stmtRequirements speak ss ↔ ∃ s ∈ ss, q ∈ s.requirements speak := by
  induction ss with
  | nil => simp
  | cons s ss ih => simp [ih]

theorem mem_fieldRequirements_iff {fields : List (String × Expr)} :
    q ∈ fieldRequirements speak fields ↔
      ∃ f ∈ fields, q = .identifier f.1 ∨ q ∈ f.2.requirements speak := by
  induction fields with
  | nil => simp
  | cons f fields ih =>
    obtain ⟨name, value⟩ := f
    simp [ih, or_assoc]

theorem mem_armRequirements_iff {arms : List (Arm Expr)} :
    q ∈ armRequirements speak arms ↔
      ∃ a ∈ arms, q = .path a.variant ∨ q ∈ (a.binding.map .identifier).toList ∨
        q ∈ a.body.requirements speak := by
  induction arms with
  | nil => simp
  | cons a arms ih =>
    obtain ⟨variant, binding, body⟩ := a
    simp [ih, or_assoc]

theorem mem_itemRequirements_iff {items : List Item} :
    q ∈ itemRequirements speak items ↔ ∃ i ∈ items, q ∈ i.requirements speak := by
  induction items with
  | nil => simp [itemRequirements]
  | cons i is ih => simp [itemRequirements, ih]

end Lists

namespace Node

section

variable (speak : Speaker) (q : Requirement)

attribute [local simp] requirements own parts identifiers paths symbol? members? owner
  mem_tyRequirements_iff mem_exprRequirements_iff mem_stmtRequirements_iff
  mem_fieldRequirements_iff mem_armRequirements_iff mem_itemRequirements_iff or_and_right exists_or

theorem mem_requirements_ty_iff (t : Ty) :
    q ∈ t.requirements ↔ q ∈ (ty t).own speak ∨ ∃ p ∈ (ty t).parts, q ∈ p.requirements speak := by
  cases t <;> simp

theorem mem_requirements_expr_iff (e : Expr) :
    q ∈ e.requirements speak ↔
      q ∈ (expr e).own speak ∨ ∃ p ∈ (expr e).parts, q ∈ p.requirements speak := by
  cases e <;> simp <;> grind

theorem mem_requirements_stmt_iff (s : Stmt) :
    q ∈ s.requirements speak ↔
      q ∈ (stmt s).own speak ∨ ∃ p ∈ (stmt s).parts, q ∈ p.requirements speak := by
  cases s with
  | bind name isMutable t value => cases t <;> simp; grind
  | _ => simp

theorem mem_requirements_signature_iff (s : Signature) :
    q ∈ s.requirements ↔
      q ∈ (signature s).own speak ∨ ∃ p ∈ (signature s).parts, q ∈ p.requirements speak := by
  cases hresult : s.result <;> simp [Signature.requirements, hresult] <;> grind

theorem mem_requirements_item_iff (i : Item) :
    q ∈ i.requirements speak ↔
      q ∈ (item i).own speak ∨ ∃ p ∈ (item i).parts, q ∈ p.requirements speak := by
  cases i with
  | submodule doc isPublic name body => cases body <;> simp
  | struct doc attrs isPublic name generics fields => cases fields <;> simp <;> grind
  | impl doc generics traitTy selfTy methods => cases traitTy <;> simp <;> grind
  | _ => simp <;> grind

/-- A node requires what it says for itself and what its parts require. -/
theorem mem_requirements_iff (n : Node) :
    q ∈ n.requirements speak ↔ q ∈ n.own speak ∨ ∃ p ∈ n.parts, q ∈ p.requirements speak := by
  cases n with
  | ty t => exact mem_requirements_ty_iff speak q t
  | expr e => exact mem_requirements_expr_iff speak q e
  | stmt s => exact mem_requirements_stmt_iff speak q s
  | signature s => exact mem_requirements_signature_iff speak q s
  | item i => exact mem_requirements_item_iff speak q i
  | arm a => simp; grind
  | attr a => cases a <;> simp
  | function f => simp [Function.requirements]
  | _ => simp

end

/-- The node itself, or any node below it. -/
inductive Occurs (m : Node) : Node → Prop
  | here : Occurs m m
  | inside {n p : Node} (hpart : p ∈ n.parts) (hoccurs : Occurs m p) : Occurs m n

section

attribute [local grind →] List.sizeOf_lt_of_mem

theorem sizeOf_lt_of_mem_parts_ty (t : Ty) : ∀ p ∈ (ty t).parts, sizeOf p < sizeOf (ty t) := by
  cases t <;> simp [parts] <;> grind

theorem sizeOf_lt_of_mem_parts_expr (e : Expr) :
    ∀ p ∈ (expr e).parts, sizeOf p < sizeOf (expr e) := by
  cases e <;> simp [parts] <;> grind

theorem sizeOf_lt_of_mem_parts_stmt (s : Stmt) :
    ∀ p ∈ (stmt s).parts, sizeOf p < sizeOf (stmt s) := by
  cases s <;> simp [parts] <;> grind

theorem sizeOf_lt_of_mem_parts_item (i : Item) :
    ∀ p ∈ (item i).parts, sizeOf p < sizeOf (item i) := by
  cases i with
  | submodule doc isPublic name body => cases body <;> simp [parts]; grind
  | struct doc attrs isPublic name generics fields => cases fields <;> simp [parts] <;> grind
  | function f => simp [parts]
  | _ => simp [parts]; grind

/-- A part is smaller than the whole. -/
theorem sizeOf_lt_of_mem_parts (n : Node) : ∀ p ∈ n.parts, sizeOf p < sizeOf n := by
  cases n with
  | ty t => exact sizeOf_lt_of_mem_parts_ty t
  | expr e => exact sizeOf_lt_of_mem_parts_expr e
  | stmt s => exact sizeOf_lt_of_mem_parts_stmt s
  | signature s => cases s; simp [parts]; grind
  | item i => exact sizeOf_lt_of_mem_parts_item i
  | arm a =>
    cases a
    simp only [parts, List.forall_mem_singleton, expr.sizeOf_spec, arm.sizeOf_spec,
      Arm.mk.sizeOf_spec]
    omega
  | param p =>
    cases p
    simp only [parts, List.forall_mem_singleton, ty.sizeOf_spec, param.sizeOf_spec,
      Param.mk.sizeOf_spec]
    omega
  | generic g => cases g; simp [parts]; grind
  | function f => cases f; simp [parts]; grind
  | field f =>
    cases f
    simp only [parts, List.forall_mem_singleton, ty.sizeOf_spec, field.sizeOf_spec,
      Field.mk.sizeOf_spec]
    omega
  | attr a => simp [parts]

end

/-- Whatever is required within a node is required by a node in it for itself. -/
theorem mem_requirements_iff_occurs (speak : Speaker) (q : Requirement) (n : Node) :
    q ∈ n.requirements speak ↔ ∃ m, Occurs m n ∧ q ∈ m.own speak := by
  constructor
  · intro hq
    induction hsize : sizeOf n using Nat.strongRecOn generalizing n with
    | ind size ih =>
      rcases (mem_requirements_iff speak q n).mp hq with hown | ⟨p, hpart, hp⟩
      · exact ⟨n, .here, hown⟩
      · obtain ⟨m, hoccurs, hm⟩ := ih _ (hsize ▸ sizeOf_lt_of_mem_parts n p hpart) p hp rfl
        exact ⟨m, .inside hpart hoccurs, hm⟩
  · rintro ⟨m, hoccurs, hm⟩
    induction hoccurs with
    | here => exact (mem_requirements_iff speak q m).mpr (.inl hm)
    | inside hpart _ ih => exact (mem_requirements_iff speak q _).mpr (.inr ⟨_, hpart, ih⟩)

/-- What a node requires for itself, read back as what it holds. -/
theorem mem_own_iff (speak : Speaker) (n : Node) (q : Requirement) :
    q ∈ n.own speak ↔
      (∃ name ∈ n.identifiers, .identifier name = q) ∨ (∃ p ∈ n.paths, .path p = q) ∨
        (∃ s, n.symbol? = some s ∧ .registered s = q) ∨
        ∃ members, n.members? = some members ∧ .distinct (n.owner speak) members = q := by
  simp [own]

end Node

namespace File

/-- The node is one of the items of the file, or it is in one of them. -/
def Holds (f : File) (n : Node) : Prop := ∃ i ∈ f.items, Node.Occurs n (.item i)

theorem mem_itemRequirements_iff_holds (f : File) (speak : Speaker) (q : Requirement) :
    q ∈ itemRequirements speak f.items ↔ ∃ n, f.Holds n ∧ q ∈ n.own speak := by
  rw [mem_itemRequirements_iff]
  constructor
  · rintro ⟨i, hi, hq⟩
    obtain ⟨n, hoccurs, hn⟩ := (Node.mem_requirements_iff_occurs speak q (.item i)).mp hq
    exact ⟨n, ⟨i, hi, hoccurs⟩, hn⟩
  · rintro ⟨n, ⟨i, hi, hoccurs⟩, hn⟩
    exact ⟨i, hi, (Node.mem_requirements_iff_occurs speak q (.item i)).mpr ⟨n, hoccurs, hn⟩⟩

/-- The file speaks of the symbol somewhere in its items. -/
def SpeaksOf (f : File) (s : Symbol) : Prop := ∃ n, f.Holds n ∧ n.symbol? = some s

/-- A file speaks of the symbols that its items require to be registered. -/
theorem speaksOf_iff (f : File) (speak : Speaker) (s : Symbol) :
    f.SpeaksOf s ↔ .registered s ∈ itemRequirements speak f.items := by
  rw [mem_itemRequirements_iff_holds]
  simp [SpeaksOf, Node.mem_own_iff]

end File

end Scaffold.Source
