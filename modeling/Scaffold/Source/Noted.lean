import Scaffold.Source.Tree

/-!
Parts of a source file that are built together with the symbols they need. A file of such parts
imports what was noted while they were built, so its imports follow its items.
-/

namespace Scaffold.Source

/-- Something built, and the external symbols that were noted on the way: those that it speaks of,
and the traits that lend it methods without being named. -/
structure Noted (α : Type) where
  value : α
  spoken : List Symbol := []
  lent : List Symbol := []

namespace Noted

variable {α β : Type}

instance : Monad Noted where
  pure a := { value := a }
  bind x f :=
    { value := (f x.value).value
      spoken := x.spoken ++ (f x.value).spoken
      lent := x.lent ++ (f x.value).lent }
  map f x := { x with value := f x.value }

/-- Builds one part for each element. -/
def each (f : α → Noted β) (xs : List α) : Noted (List β) where
  value := xs.map fun x => (f x).value
  spoken := xs.flatMap fun x => (f x).spoken
  lent := xs.flatMap fun x => (f x).lent

/-- All that is to be imported. -/
def symbols (x : Noted α) : List Symbol := x.spoken ++ x.lent

variable (a : α) (x : Noted α) (f : α → Noted β) (g : α → β) (xs : List α)

@[simp] theorem value_pure : (pure a : Noted α).value = a := rfl
@[simp] theorem spoken_pure : (pure a : Noted α).spoken = [] := rfl
@[simp] theorem lent_pure : (pure a : Noted α).lent = [] := rfl

@[simp] theorem value_bind : (x >>= f).value = (f x.value).value := rfl
@[simp] theorem spoken_bind : (x >>= f).spoken = x.spoken ++ (f x.value).spoken := rfl
@[simp] theorem lent_bind : (x >>= f).lent = x.lent ++ (f x.value).lent := rfl

@[simp] theorem value_map : (g <$> x).value = g x.value := rfl
@[simp] theorem spoken_map : (g <$> x).spoken = x.spoken := rfl
@[simp] theorem lent_map : (g <$> x).lent = x.lent := rfl

@[simp] theorem value_each : (each f xs).value = xs.map fun x => (f x).value := rfl
@[simp] theorem spoken_each : (each f xs).spoken = xs.flatMap fun x => (f x).spoken := rfl
@[simp] theorem lent_each : (each f xs).lent = xs.flatMap fun x => (f x).lent := rfl

theorem each_map {γ : Type} (h : γ → α) (cs : List γ) :
    each f (cs.map h) = each (fun c => f (h c)) cs := by
  simp only [each, List.map_map, List.flatMap_map, Function.comp_def]

end Noted

namespace Symbol

/-- The symbol as a type. -/
def ty (s : Symbol) (args : List Ty := []) : Noted Ty :=
  { value := .imported s args, spoken := [s] }

/-- The symbol as an expression. -/
def expr (s : Symbol) : Noted Expr := { value := .ofSymbol s, spoken := [s] }

/-- An item associated with the symbol. -/
def member (s : Symbol) (name : String) : Noted Expr :=
  { value := .ofMember s name, spoken := [s] }

/-- A trait for the methods that it lends. -/
def lend (s : Symbol) : Noted Unit := { value := (), lent := [s] }

variable (s : Symbol) (args : List Ty) (name : String)

@[simp] theorem value_ty : (s.ty args).value = .imported s args := rfl
@[simp] theorem spoken_ty : (s.ty args).spoken = [s] := rfl
@[simp] theorem lent_ty : (s.ty args).lent = [] := rfl

@[simp] theorem value_expr : s.expr.value = .ofSymbol s := rfl
@[simp] theorem spoken_expr : s.expr.spoken = [s] := rfl
@[simp] theorem lent_expr : s.expr.lent = [] := rfl

@[simp] theorem value_member : (s.member name).value = .ofMember s name := rfl
@[simp] theorem spoken_member : (s.member name).spoken = [s] := rfl
@[simp] theorem lent_member : (s.member name).lent = [] := rfl

@[simp] theorem spoken_lend : s.lend.spoken = [] := rfl
@[simp] theorem lent_lend : s.lend.lent = [s] := rfl

end Symbol

/-- A file of the given items, which imports what they note and declares the given names. -/
def File.ofNoted (doc declared : List String) (items : List (Noted Item)) : File where
  doc := doc
  imports := .ofLists (items.flatMap Noted.symbols) declared
  items := items.map (·.value)

end Scaffold.Source
