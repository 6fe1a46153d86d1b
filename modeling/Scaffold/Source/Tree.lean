import Scaffold.Source.Imports

/-!
The statement tree of a generated source file. An item of another module is named by a symbol, never
by text, so that the imports of the file decide how it is spoken.
-/

namespace Scaffold.Source

inductive Ty where
  /-- A name that needs no import: a parameter, a local item, a prelude type or an absolute path. -/
  | named (path : String) (args : List Ty)
  | imported (s : Symbol) (args : List Ty)
  | ref (inner : Ty)
  | staticRef (inner : Ty)
  | function (params : List Ty) (result : Ty)
  | tuple (items : List Ty)
  | infer
  | static

inductive BinaryOp where
  | and | eq | ne
  deriving DecidableEq, Repr

structure Param where
  name : String
  ty : Ty
  isMutable : Bool := false

/-- One arm of a match: a variant, the name its content is bound to, and the result. -/
structure Arm (ε : Type) where
  variant : String
  binding : Option String := none
  body : ε

mutual

inductive Expr where
  | text (s : String)
  | char (c : Char)
  | bool (b : Bool)
  | path (p : String)
  /-- An imported item, or an item associated with it. -/
  | imported (s : Symbol) (member : Option String)
  | traitItem (selfTy traitTy : Ty) (item : String)
  | turbofish (base : Expr) (args : List Ty)
  | call (callee : Expr) (args : List Expr)
  | method (receiver : Expr) (name : String) (args : List Expr)
  | field (base : Expr) (name : String)
  | ref (inner : Expr)
  | binary (lhs : Expr) (op : BinaryOp) (rhs : Expr)
  | tuple (items : List Expr)
  | closure (isMove : Bool) (params : List Param) (body : Expr)
  | async (isMove : Bool) (body : List Stmt)
  | await (inner : Expr)
  | attempt (inner : Expr)
  | record (ty : Ty) (fields : List (String × Expr))
  | invoke (macroName : String) (args : List Expr)
  | block (body : List Stmt)
  | choose (scrutinee : Expr) (arms : List (Arm Expr))

inductive Stmt where
  | bind (name : String) (isMutable : Bool) (ty : Option Ty) (value : Expr)
  | assign (target value : Expr)
  /-- The value of a block. -/
  | result (e : Expr)
  | comment (text : String)
  | blank
  | loop (name : String) (sequence : Expr) (body : List Stmt)
  | guarded (condition : Expr) (body : List Stmt)

end

abbrev Block := List Stmt

namespace Ty

/-- A name without arguments. -/
def plain (name : String) : Ty := named name []

/-- An imported item without arguments. -/
def ofSymbol (s : Symbol) : Ty := imported s []

end Ty

namespace Expr

def ofSymbol (s : Symbol) : Expr := imported s none

/-- An item associated with an imported one. -/
def ofMember (s : Symbol) (member : String) : Expr := imported s (some member)

end Expr

namespace Stmt

/-- Binds a name for good, without a type. -/
def define (name : String) (value : Expr) : Stmt := bind name false none value

/-- A comment on several lines. -/
def comments (lines : List String) : Block := lines.map comment

end Stmt

inductive Attr where
  | derive (names : List String)
  | path (p : String)

structure Generic where
  name : String
  bounds : List Ty := []

inductive Receiver where
  | byRef | byValue
  deriving DecidableEq, Repr

structure Signature where
  doc : List String := []
  attrs : List Attr := []
  isPublic : Bool := false
  isAsync : Bool := false
  name : String
  generics : List Generic := []
  receiver : Option Receiver := none
  params : List Param := []
  result : Option Ty := none

structure Function where
  signature : Signature
  body : Block

structure Field where
  doc : List String := []
  isPublic : Bool := false
  name : String
  ty : Ty

inductive Item where
  /-- A module in a file of its own, or with its items in place. -/
  | submodule (doc : List String) (isPublic : Bool) (name : String) (body : Option (List Item))
  /-- A structure; without a field list it is a unit. -/
  | struct (doc : List String) (attrs : List Attr) (isPublic : Bool) (name : String)
      (generics : List Generic) (fields : Option (List Field))
  | typeAlias (doc : List String) (isPublic : Bool) (name : String) (generics : List Generic)
    (ty : Ty)
  | const (doc : List String) (isPublic : Bool) (name : String) (ty : Ty) (value : Expr)
  | trait (doc : List String) (isPublic : Bool) (name : String) (supertraits : List Ty)
      (methods : List Signature)
  | impl (doc : List String) (generics : List Generic) (traitTy : Option Ty) (selfTy : Ty)
      (methods : List Function)
  | function (f : Function)

/-- A source file: its documentation, the imports its tree was built against, and its items. -/
structure File where
  doc : List String := []
  imports : Imports := {}
  items : List Item := []

end Scaffold.Source
