import Scaffold.Naming.Identifier

/-!
The external symbols of one source file and the local name that each is spoken by. Local names
depend on the set of symbols and reserved names alone, never on the order in which they were noted.
-/

namespace Scaffold.Source

/-- An item exported by another module, whose path does not hold the item itself. -/
structure Symbol where
  path : String
  name : String
  deriving DecidableEq, Repr, Inhabited

namespace Symbol

def fullPath (s : Symbol) : String := s.path ++ "::" ++ s.name

def before (a b : Symbol) : Bool :=
  decide (a.path < b.path) || (a.path == b.path && decide (a.name < b.name))

end Symbol

/-- Puts an element in front of the first that does not come before it, unless it is there. -/
def insertSorted {α : Type} [DecidableEq α] (before : α → α → Bool) (x : α) : List α → List α
  | [] => [x]
  | y :: ys =>
    if x = y then y :: ys
    else if before y x then y :: insertSorted before x ys
    else x :: y :: ys

theorem mem_insertSorted {α : Type} [DecidableEq α] (before : α → α → Bool) (x y : α)
    (ys : List α) : y ∈ insertSorted before x ys ↔ y = x ∨ y ∈ ys := by
  induction ys with
  | nil => simp [insertSorted]
  | cons z zs ih => grind [insertSorted]

def nameBefore (a b : String) : Bool := decide (a < b)

/-- Both lists are sorted and hold each element once. -/
structure Imports where
  symbols : List Symbol := []
  reserved : List String := []
  deriving DecidableEq, Repr, Inhabited

namespace Imports

def register (r : Imports) (s : Symbol) : Imports :=
  { r with symbols := insertSorted Symbol.before s r.symbols }

/-- Marks a name as declared by the file itself, so that no import is spoken by it. -/
def reserve (r : Imports) (name : String) : Imports :=
  { r with reserved := insertSorted nameBefore name r.reserved }

/-- The imports of a file that speaks of the given symbols and declares the given names. -/
def ofLists (symbols : List Symbol) (declared : List String) : Imports :=
  declared.foldl reserve (symbols.foldl register {})

/-- The names under which the symbols are exported, sorted and each once. -/
def exportedNames (r : Imports) : List String :=
  r.symbols.foldl (fun names s => insertSorted nameBefore s.name names) []

/-- The symbols exported under a name, by full path. -/
def group (r : Imports) (name : String) : List Symbol :=
  (r.symbols.filter (·.name == name)).mergeSort fun a b => decide (a.fullPath ≤ b.fullPath)

/-- The parent module, capitalized, in front of the exported name. -/
def aliasBase (s : Symbol) : String := Naming.titleCase (Text.lastSegment s.path) ++ s.name

/-- The base itself, and then the base numbered from two. -/
def aliasAt (base : String) (i : Nat) : String := if i = 0 then base else base ++ toString (i + 1)

/-- The first alias that is not in use. One of more candidates than names in use is free. -/
def freshAlias (used : List String) (s : Symbol) : String :=
  let base := aliasBase s
  (((List.range (used.length + 1)).map (aliasAt base)).find? fun a => !(used.contains a)).getD base

/-- Names in use, and the local names given so far. -/
structure Assignment where
  used : List String
  given : List (Symbol × String) := []

namespace Assignment

def giveAlias (a : Assignment) (s : Symbol) : Assignment :=
  let fresh := freshAlias a.used s
  { used := fresh :: a.used, given := a.given ++ [(s, fresh)] }

def giveName (a : Assignment) (s : Symbol) : Assignment :=
  { a with given := a.given ++ [(s, s.name)] }

/-- The first symbol of a group keeps its name, unless the file declares that name. -/
def giveGroup (reserved : List String) (a : Assignment) (members : List Symbol) : Assignment :=
  match members with
  | [] => a
  | s :: rest =>
    if reserved.contains s.name then members.foldl giveAlias a
    else rest.foldl giveAlias (a.giveName s)

end Assignment

def assignment (r : Imports) : Assignment :=
  (r.exportedNames.map r.group).foldl (Assignment.giveGroup r.reserved)
    { used := r.reserved ++ r.exportedNames }

/-- The local name of a symbol, if it is registered. -/
def localName? (r : Imports) (s : Symbol) : Option String := r.assignment.given.lookup s

/-- Every symbol with its local name, in the order of the symbols. -/
def localNames (r : Imports) : List (Symbol × String) :=
  let given := r.assignment.given
  r.symbols.filterMap fun s => (given.lookup s).map (s, ·)

def useLine (s : Symbol) (localName : String) : String :=
  if localName == s.name then "use " ++ s.fullPath ++ ";"
  else "use " ++ s.fullPath ++ " as " ++ localName ++ ";"

/-- The import lines by full path. -/
def useLines (r : Imports) : List String :=
  let lines := r.localNames.map fun p => (p.1.fullPath, useLine p.1 p.2)
  let ordered := lines.mergeSort fun a b =>
    decide (a.1 < b.1) || (a.1 == b.1 && decide (a.2 ≤ b.2))
  ordered.map (·.2)

end Imports

end Scaffold.Source
