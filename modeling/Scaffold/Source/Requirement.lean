import Scaffold.Sequence.Repeat
import Scaffold.Source.Layout

/-!
What a source tree must satisfy to have a text, as a list in the order of the text: names that must
be identifiers or paths, symbols that must be registered, and members that must differ. A file is
rendered if all hold; otherwise the first that fails is reported.
-/

namespace Scaffold.Source

inductive RenderError where
  | unregisteredSymbol (fullPath : String)
  | invalidIdentifier (name : String)
  | duplicateMember (owner member : String)
  deriving DecidableEq, Repr

namespace RenderError

def message : RenderError → String
  | unregisteredSymbol path => "symbol " ++ path ++ " is referenced but was never registered"
  | invalidIdentifier name => Text.quoted name ++ " is not a valid identifier"
  | duplicateMember owner member => owner ++ " declares " ++ member ++ " more than once"

end RenderError

inductive Requirement where
  | identifier (name : String)
  | path (path : String)
  | registered (s : Symbol)
  | distinct (owner : String) (members : List String)
  deriving DecidableEq, Repr

namespace Requirement

/-- What is wrong, if the requirement does not hold for the given imports. -/
def defect? (imports : Imports) : Requirement → Option RenderError
  | identifier name => if Naming.isIdentifier name then none else some (.invalidIdentifier name)
  | path p => if Naming.isPath p then none else some (.invalidIdentifier p)
  | registered s =>
    if imports.symbols.contains s then none else some (.unregisteredSymbol s.fullPath)
  | distinct owner members => (firstRepeat? members).map (.duplicateMember owner)

end Requirement

open Requirement

mutual

def Ty.requirements : Ty → List Requirement
  | .named p args => path p :: tyRequirements args
  | .imported s args => registered s :: tyRequirements args
  | .ref inner => inner.requirements
  | .staticRef inner => inner.requirements
  | .function params result => tyRequirements params ++ result.requirements
  | .tuple items => tyRequirements items
  | .infer => []
  | .static => []

def tyRequirements : List Ty → List Requirement
  | [] => []
  | t :: ts => t.requirements ++ tyRequirements ts

end

def Param.requirements (p : Param) : List Requirement := identifier p.name :: p.ty.requirements

mutual

def Expr.requirements (speak : Speaker) : Expr → List Requirement
  | .text _ => []
  | .char _ => []
  | .bool _ => []
  | .path p => [path p]
  | .imported s member => registered s :: (member.map identifier).toList
  | .traitItem selfTy traitTy item =>
    selfTy.requirements ++ traitTy.requirements ++ [identifier item]
  | .turbofish base args => base.requirements speak ++ tyRequirements args
  | .call callee args => callee.requirements speak ++ exprRequirements speak args
  | .method receiver name args =>
    receiver.requirements speak ++ identifier name :: exprRequirements speak args
  | .field base name => base.requirements speak ++ [identifier name]
  | .ref inner => inner.requirements speak
  | .binary lhs _ rhs => lhs.requirements speak ++ rhs.requirements speak
  | .tuple items => exprRequirements speak items
  | .closure _ params body => params.flatMap Param.requirements ++ body.requirements speak
  | .async _ body => stmtRequirements speak body
  | .await inner => inner.requirements speak
  | .attempt inner => inner.requirements speak
  | .record ty fields =>
    ty.requirements ++ distinct (ty.text speak) (fields.map (·.1)) ::
      fieldRequirements speak fields
  | .invoke name args =>
    (if name == "vec" then [] else [path name]) ++ exprRequirements speak args
  | .block body => stmtRequirements speak body
  | .choose scrutinee arms => scrutinee.requirements speak ++ armRequirements speak arms

def exprRequirements (speak : Speaker) : List Expr → List Requirement
  | [] => []
  | e :: es => e.requirements speak ++ exprRequirements speak es

def fieldRequirements (speak : Speaker) : List (String × Expr) → List Requirement
  | [] => []
  | (name, value) :: fields =>
    identifier name :: value.requirements speak ++ fieldRequirements speak fields

def armRequirements (speak : Speaker) : List (Arm Expr) → List Requirement
  | [] => []
  | ⟨variant, binding, body⟩ :: arms =>
    path variant :: (binding.map identifier).toList ++ body.requirements speak ++
      armRequirements speak arms

def stmtRequirements (speak : Speaker) : List Stmt → List Requirement
  | [] => []
  | s :: ss => s.requirements speak ++ stmtRequirements speak ss

def Stmt.requirements (speak : Speaker) : Stmt → List Requirement
  | .bind name _ ty value =>
    (match ty with
      | some ty => ty.requirements
      | none => []) ++
      identifier name :: value.requirements speak
  | .assign target value => target.requirements speak ++ value.requirements speak
  | .result e => e.requirements speak
  | .comment _ => []
  | .blank => []
  | .loop name sequence body =>
    identifier name :: sequence.requirements speak ++ stmtRequirements speak body
  | .guarded condition body => condition.requirements speak ++ stmtRequirements speak body

end

def Generic.requirements (g : Generic) : List Requirement :=
  identifier g.name :: tyRequirements g.bounds

def Attr.requirements : Attr → List Requirement
  | derive names => names.map .path
  | path p => [.path p]

def Signature.requirements (s : Signature) : List Requirement :=
  s.attrs.flatMap Attr.requirements ++ s.params.flatMap Param.requirements ++
    (match s.result with
      | some ty => ty.requirements
      | none => []) ++
    identifier s.name :: s.generics.flatMap Generic.requirements

def Function.requirements (speak : Speaker) (f : Function) : List Requirement :=
  f.signature.requirements ++ stmtRequirements speak f.body

def Field.requirements (f : Field) : List Requirement := identifier f.name :: f.ty.requirements

mutual

def Item.requirements (speak : Speaker) : Item → List Requirement
  | .submodule _ _ name none => [identifier name]
  | .submodule _ _ name (some items) => identifier name :: itemRequirements speak items
  | .struct _ attrs _ name generics fields =>
    attrs.flatMap Attr.requirements ++ identifier name :: generics.flatMap Generic.requirements ++
      (match fields with
        | none => []
        | some fields =>
          distinct name (fields.map (·.name)) :: fields.flatMap Field.requirements)
  | .typeAlias _ _ name generics ty =>
    identifier name :: generics.flatMap Generic.requirements ++ ty.requirements
  | .const _ _ name ty value => identifier name :: ty.requirements ++ value.requirements speak
  | .trait _ _ name supertraits methods =>
    distinct name (methods.map (·.name)) :: tyRequirements supertraits ++ identifier name ::
      methods.flatMap Signature.requirements
  | .impl _ generics traitTy selfTy methods =>
    selfTy.requirements ++ generics.flatMap Generic.requirements ++
      (match traitTy with
        | some t => t.requirements
        | none => []) ++
      distinct (implHead speak generics traitTy selfTy) (methods.map (·.signature.name)) ::
      methods.flatMap (Function.requirements speak)
  | .function f => f.requirements speak

def itemRequirements (speak : Speaker) : List Item → List Requirement
  | [] => []
  | i :: is => i.requirements speak ++ itemRequirements speak is

end

namespace File

/-- The symbols come first, in their order, and then the items. -/
def requirements (f : File) : List Requirement :=
  (f.imports.symbols.flatMap fun s => [path s.path, identifier s.name]) ++
    itemRequirements f.speaker f.items

def defect? (f : File) : Option RenderError :=
  f.requirements.findSome? (Requirement.defect? f.imports)

/-- The text of the file, or the first requirement that fails. -/
def render (f : File) : Except RenderError String :=
  match f.defect? with
  | some e => .error e
  | none => .ok f.layout

end File

end Scaffold.Source
