import Scaffold.Source.Tree
import Scaffold.Text.Blank
import Scaffold.Text.Literal

/-!
The text of a source tree. Nesting is shown by four blanks a level and lines have no width. Names
are written as they stand; imported items are spoken by the given local names.
-/

namespace Scaffold.Source

/-- How imported symbols are spoken. -/
abbrev Speaker := Symbol → String

def pad (level : Nat) : String := String.ofList (List.replicate (4 * level) ' ')

def commaed (parts : List String) : String := String.intercalate ", " parts

/-- A comment line of a marker and a text without the blanks at its end. -/
def commentLine (level : Nat) (marker line : String) : String :=
  let line := Text.trimEnd line
  pad level ++ marker ++ (if line.isEmpty then "" else " " ++ line) ++ "\n"

/-- Comment lines; an entry of several lines has the marker on each. -/
def commentLines (level : Nat) (marker : String) (entries : List String) : String :=
  String.join ((entries.flatMap (Text.splitAt '\n')).map (commentLine level marker))

def docLines (level : Nat) (doc : List String) : String := commentLines level "///" doc

def visibility (isPublic : Bool) : String := if isPublic then "pub " else ""

namespace BinaryOp

def text : BinaryOp → String
  | and => "&&"
  | eq => "=="
  | ne => "!="

/-- Comparisons bind closer than conjunction. -/
def strength : BinaryOp → Nat
  | and => 1
  | eq => 2
  | ne => 2

end BinaryOp

mutual

def Ty.text (speak : Speaker) : Ty → String
  | .named path args => path ++ tyArgs speak args
  | .imported s args => speak s ++ tyArgs speak args
  | .ref inner => "&" ++ inner.text speak
  | .staticRef inner => "&'static " ++ inner.text speak
  | .function params result =>
    "fn(" ++ commaed (tyTexts speak params) ++ ") -> " ++ result.text speak
  | .tuple [item] => "(" ++ item.text speak ++ ",)"
  | .tuple items => "(" ++ commaed (tyTexts speak items) ++ ")"
  | .infer => "_"
  | .static => "'static"

def tyTexts (speak : Speaker) : List Ty → List String
  | [] => []
  | t :: ts => t.text speak :: tyTexts speak ts

def tyArgs (speak : Speaker) : List Ty → String
  | [] => ""
  | t :: ts => "<" ++ commaed (t.text speak :: tyTexts speak ts) ++ ">"

end

def Param.text (speak : Speaker) (p : Param) : String :=
  (if p.isMutable then "mut " else "") ++ p.name ++ ": " ++ p.ty.text speak

namespace Expr

/-- Whether the expression needs parentheses in front of a call, an access or a postfix. -/
def isLoose : Expr → Bool
  | ref _ => true
  | binary _ _ _ => true
  | closure _ _ _ => true
  | choose _ _ => true
  | _ => false

/-- Whether the expression needs parentheses beside an operator. -/
def isLooseBeside (op : BinaryOp) : Expr → Bool
  | binary _ inner _ => inner.strength ≤ op.strength
  | closure _ _ _ => true
  | _ => false

end Expr

def parenthesized (loose : Bool) (text : String) : String :=
  if loose then "(" ++ text ++ ")" else text

mutual

/-- The text of an expression that starts within a line at the given level. -/
def Expr.layout (speak : Speaker) (level : Nat) : Expr → String
  | .text s => Text.quoted s
  | .char c => Text.quotedChar c
  | .bool b => if b then "true" else "false"
  | .path p => p
  | .imported s none => speak s
  | .imported s (some member) => speak s ++ "::" ++ member
  | .traitItem selfTy traitTy item =>
    "<" ++ selfTy.text speak ++ " as " ++ traitTy.text speak ++ ">::" ++ item
  | .turbofish base args =>
    base.layout speak level ++ "::<" ++ commaed (tyTexts speak args) ++ ">"
  | .call callee args =>
    parenthesized callee.isLoose (callee.layout speak level) ++ "(" ++
      commaed (exprTexts speak level args) ++ ")"
  | .method receiver name args =>
    parenthesized receiver.isLoose (receiver.layout speak level) ++ "." ++ name ++ "(" ++
      commaed (exprTexts speak level args) ++ ")"
  | .field base name => parenthesized base.isLoose (base.layout speak level) ++ "." ++ name
  | .ref inner => "&" ++ inner.layout speak level
  | .binary lhs op rhs =>
    parenthesized (lhs.isLooseBeside op) (lhs.layout speak level) ++ " " ++ op.text ++ " " ++
      parenthesized (rhs.isLooseBeside op) (rhs.layout speak level)
  | .tuple [item] => "(" ++ item.layout speak level ++ ",)"
  | .tuple items => "(" ++ commaed (exprTexts speak level items) ++ ")"
  | .closure isMove params body =>
    (if isMove then "move " else "") ++ "|" ++ commaed (params.map (Param.text speak)) ++ "| " ++
      body.layout speak level
  | .async isMove body =>
    "async " ++ (if isMove then "move " else "") ++ blockText speak level body
  | .await inner => parenthesized inner.isLoose (inner.layout speak level) ++ ".await"
  | .attempt inner => parenthesized inner.isLoose (inner.layout speak level) ++ "?"
  | .record ty fields =>
    ty.text speak ++ " \x7b\n" ++ fieldLines speak (level + 1) fields ++ pad level ++ "\x7d"
  | .invoke name args =>
    if name == "vec" then
      match args with
      | [] => "vec![]"
      | args => "vec![\n" ++ exprLines speak (level + 1) args ++ pad level ++ "]"
    else name ++ "!(" ++ commaed (exprTexts speak level args) ++ ")"
  | .block body => blockText speak level body
  | .choose scrutinee arms =>
    "match " ++ scrutinee.layout speak level ++ " \x7b\n" ++ armLines speak (level + 1) arms ++
      pad level ++ "\x7d"

def exprTexts (speak : Speaker) (level : Nat) : List Expr → List String
  | [] => []
  | e :: es => e.layout speak level :: exprTexts speak level es

/-- Expressions on lines of their own, each with a comma. -/
def exprLines (speak : Speaker) (level : Nat) : List Expr → String
  | [] => ""
  | e :: es => pad level ++ e.layout speak level ++ ",\n" ++ exprLines speak level es

/-- Fields on lines of their own; a field whose value is spelled like its name is written once. -/
def fieldLines (speak : Speaker) (level : Nat) : List (String × Expr) → String
  | [] => ""
  | (name, value) :: fields =>
    let text := value.layout speak level
    pad level ++ (if text == name then name else name ++ ": " ++ text) ++ ",\n" ++
      fieldLines speak level fields

def armLines (speak : Speaker) (level : Nat) : List (Arm Expr) → String
  | [] => ""
  | ⟨variant, binding, body⟩ :: arms =>
    pad level ++ variant ++
      (match binding with
        | some name => "(" ++ name ++ ")"
        | none => "") ++
      " => " ++ body.layout speak level ++ ",\n" ++ armLines speak level arms

/-- Statements between braces, the closing one at the given level. -/
def blockText (speak : Speaker) (level : Nat) : List Stmt → String
  | [] => "\x7b\x7d"
  | s :: ss =>
    "\x7b\n" ++ s.layout speak (level + 1) ++ stmtTexts speak (level + 1) ss ++ pad level ++ "\x7d"

def stmtTexts (speak : Speaker) (level : Nat) : List Stmt → String
  | [] => ""
  | s :: ss => s.layout speak level ++ stmtTexts speak level ss

/-- The lines of a statement at the given level. -/
def Stmt.layout (speak : Speaker) (level : Nat) : Stmt → String
  | .bind name isMutable ty value =>
    pad level ++ "let " ++ (if isMutable then "mut " else "") ++ name ++
      (match ty with
        | some ty => ": " ++ ty.text speak
        | none => "") ++
      " = " ++ value.layout speak level ++ ";\n"
  | .assign target value =>
    pad level ++ target.layout speak level ++ " = " ++ value.layout speak level ++ ";\n"
  | .result e => pad level ++ e.layout speak level ++ "\n"
  | .comment text => commentLines level "//" [text]
  | .blank => "\n"
  | .loop name sequence body =>
    pad level ++ "for " ++ name ++ " in " ++ sequence.layout speak level ++ " " ++
      blockText speak level body ++ "\n"
  | .guarded condition body =>
    pad level ++ "if " ++ condition.layout speak level ++ " " ++ blockText speak level body ++ "\n"

end

def boundsText (speak : Speaker) (bounds : List Ty) : String :=
  if bounds.isEmpty then "" else ": " ++ String.intercalate " + " (tyTexts speak bounds)

def Generic.text (speak : Speaker) (g : Generic) : String := g.name ++ boundsText speak g.bounds

def genericsText (speak : Speaker) (generics : List Generic) : String :=
  if generics.isEmpty then "" else "<" ++ commaed (generics.map (Generic.text speak)) ++ ">"

def Attr.text : Attr → String
  | derive names => "derive(" ++ commaed names ++ ")"
  | path p => p

def attrLines (level : Nat) (attrs : List Attr) : String :=
  String.join (attrs.map fun a => pad level ++ "#[" ++ a.text ++ "]\n")

def Receiver.text : Receiver → String
  | byRef => "&self"
  | byValue => "self"

namespace Signature

/-- The lines above the head: documentation and attributes. -/
def preamble (level : Nat) (s : Signature) : String :=
  docLines level s.doc ++ attrLines level s.attrs

/-- The head without what ends it. -/
def head (speak : Speaker) (level : Nat) (s : Signature) : String :=
  pad level ++ visibility s.isPublic ++ (if s.isAsync then "async " else "") ++ "fn " ++ s.name ++
    genericsText speak s.generics ++ "(" ++
    commaed ((s.receiver.map Receiver.text).toList ++ s.params.map (Param.text speak)) ++ ")" ++
    (match s.result with
      | some ty => " -> " ++ ty.text speak
      | none => "")

end Signature

def Function.layout (speak : Speaker) (level : Nat) (f : Function) : String :=
  f.signature.preamble level ++ f.signature.head speak level ++ " " ++
    blockText speak level f.body ++ "\n"

/-- Texts of members with an empty line between them. -/
def spaced (parts : List String) : String := String.intercalate "\n" parts

/-- Lines between braces behind a head, or the braces alone. -/
def braced (level : Nat) (head : String) (parts : List String) : String :=
  if parts.isEmpty then head ++ " \x7b\x7d\n"
  else head ++ " \x7b\n" ++ spaced parts ++ pad level ++ "\x7d\n"

def Field.layout (speak : Speaker) (level : Nat) (f : Field) : String :=
  docLines level f.doc ++ pad level ++ visibility f.isPublic ++ f.name ++ ": " ++ f.ty.text speak ++
    ",\n"

/-- The head of an implementation, which also names it in reports. -/
def implHead (speak : Speaker) (generics : List Generic) (traitTy : Option Ty) (selfTy : Ty) :
    String :=
  "impl" ++ genericsText speak generics ++ " " ++
    (match traitTy with
      | some t => t.text speak ++ " for "
      | none => "") ++
    selfTy.text speak

mutual

def Item.layout (speak : Speaker) (level : Nat) : Item → String
  | .submodule doc isPublic name none =>
    docLines level doc ++ pad level ++ visibility isPublic ++ "mod " ++ name ++ ";\n"
  | .submodule doc isPublic name (some items) =>
    docLines level doc ++ pad level ++ visibility isPublic ++ "mod " ++ name ++ " \x7b\n" ++
      itemTexts speak (level + 1) items ++ pad level ++ "\x7d\n"
  | .struct doc attrs isPublic name generics fields =>
    docLines level doc ++ attrLines level attrs ++ pad level ++ visibility isPublic ++ "struct " ++
      name ++ genericsText speak generics ++
      (match fields with
        | none => ";\n"
        | some fields =>
          " \x7b\n" ++ String.join (fields.map (Field.layout speak (level + 1))) ++ pad level ++
            "\x7d\n")
  | .typeAlias doc isPublic name generics ty =>
    docLines level doc ++ pad level ++ visibility isPublic ++ "type " ++ name ++
      genericsText speak generics ++ " = " ++ ty.text speak ++ ";\n"
  | .const doc isPublic name ty value =>
    docLines level doc ++ pad level ++ visibility isPublic ++ "const " ++ name ++ ": " ++
      ty.text speak ++ " = " ++ value.layout speak level ++ ";\n"
  | .trait doc isPublic name supertraits methods =>
    docLines level doc ++
      braced level (pad level ++ visibility isPublic ++ "trait " ++ name ++
        boundsText speak supertraits)
        (methods.map fun s => s.preamble (level + 1) ++ s.head speak (level + 1) ++ ";\n")
  | .impl doc generics traitTy selfTy methods =>
    docLines level doc ++
      braced level (pad level ++ implHead speak generics traitTy selfTy)
        (methods.map (Function.layout speak (level + 1)))
  | .function f => f.layout speak level

/-- Items of a module in place, without empty lines between them. -/
def itemTexts (speak : Speaker) (level : Nat) : List Item → String
  | [] => ""
  | i :: is => i.layout speak level ++ itemTexts speak level is

end

namespace File

/-- Unregistered symbols, which no accepted file holds, are spoken by their exported name. -/
def speaker (f : File) : Speaker :=
  let given := f.imports.assignment.given
  fun s => (given.lookup s).getD s.name

/-- A part of the file in front of the items, with an empty line behind it unless it is empty. -/
def leading (text : String) : String := if text.isEmpty then "" else text ++ "\n"

def layout (f : File) : String :=
  leading (commentLines 0 "//!" f.doc) ++
    leading (String.join (f.imports.useLines.map (· ++ "\n"))) ++
    spaced (f.items.map (Item.layout f.speaker 0))

end File

end Scaffold.Source
