import Scaffold.Document.Basic
import Scaffold.Yaml.Lexeme

/-!
Values of the YAML format with all aliases replaced, and how a reader sees them. What a scalar means
depends on its tag first and then on its style.
-/

namespace Scaffold

inductive Yaml where
  | scalar (tag : Option String) (style : Yaml.Style) (text : String)
  | list (tag : Option String) (items : List Yaml)
  | record (tag : Option String) (members : List (Yaml × Yaml))

namespace Yaml

def boolTag : String := "tag:yaml.org,2002:bool"
def intTag : String := "tag:yaml.org,2002:int"
def floatTag : String := "tag:yaml.org,2002:float"
def nullTag : String := "tag:yaml.org,2002:null"

/-- The word of a tag that names a case of an enumeration. -/
def caseOfTag? : Option String → Option String
  | none => none
  | some tag =>
    match tag.toList with
    | ['!'] => some tag
    | '!' :: word => some (String.ofList word)
    | _ => none

def tag : Yaml → Option String
  | scalar t _ _ => t
  | list t _ => t
  | record t _ => t

/-- An empty plain scalar stands for a missing value. -/
def isMissing : Yaml → Bool
  | scalar _ .plain text => text.isEmpty
  | _ => false

/-- The key of a member, which must be a scalar. -/
def keyed? (m : Yaml × Yaml) : Option (String × Yaml) :=
  match m.1 with
  | scalar _ _ text => some (text, m.2)
  | _ => none

def members? : Yaml → Option (List (String × Yaml))
  | record _ ms => ms.mapM keyed?
  | v => if v.isMissing then some [] else none

def items? : Yaml → Option (List Yaml)
  | list _ xs => some xs
  | v => if v.isMissing then some [] else none

def text? : Yaml → Option String
  | scalar _ _ text => some text
  | _ => none

/-- What a scalar means to a reader without expectation, unless it cannot hold it. -/
def scalarMeaning? (tag : Option String) (style : Style) (text : String) : Option Meaning :=
  if (caseOfTag? tag).isSome then none
  else
    match tag with
    | none => if style = .plain then some (meaning text) else some .text
    | some tag =>
      if tag = boolTag then (flagWord? text).map .flag
      else if tag = intTag then wholeMeaning? text
      else if tag = floatTag then if isReal text then some .real else none
      else if tag = nullTag then if isNullWord text then some .null else none
      else some .text

def ownText? : Yaml → Option String
  | scalar tag style text => if scalarMeaning? tag style text = some .text then some text else none
  | _ => none

/-- Whether a scalar may be read as a value of a plain type: it is unquoted, or a literal block with
the tag of that type. -/
def unquoted (expected : String) (tag : Option String) (style : Style) : Bool :=
  style = .plain || (style = .literal && tag == some expected)

def flag? : Yaml → Option Bool
  | scalar tag style text => if unquoted boolTag tag style then flagWord? text else none
  | _ => none

def number? : Yaml → Option Int64
  | scalar tag style text =>
    if unquoted intTag tag style then do
      Number.signed? (← whole? text)
    else none
  | _ => none

/-- A word is a scalar, or the tag of a scalar that holds nothing. -/
def word? (v : Yaml) : Option String :=
  match caseOfTag? v.tag, v with
  | some word, scalar _ .plain text => if text.isEmpty || isNullWord text then some word else none
  | some _, _ => none
  | none, v => v.text?

/-- A number of more than 64 bits and a tag that names a case cannot be held. -/
def storable : Yaml → Bool
  | scalar tag style text =>
    match scalarMeaning? tag style text with
    | none => false
    | some m => m ≠ .wide
  | list tag xs => (caseOfTag? tag).isNone && storableAll xs
  | record tag ms => (caseOfTag? tag).isNone && storableMembers ms
where
  storableAll : List Yaml → Bool
    | [] => true
    | x :: xs => storable x && storableAll xs
  storableMembers : List (Yaml × Yaml) → Bool
    | [] => true
    | (k, v) :: ms => storable k && storable v && storableMembers ms

instance : Readable Yaml where
  members? := members?
  items? := items?
  text? := text?
  ownText? := ownText?
  flag? := flag?
  number? := number?
  word? := word?
  storable := storable

end Yaml

end Scaffold
