/-!
Documents as a writer sees them, and the views of a document that a reader asks for. A reader takes
the members of a record by name: a member it knows may occur once, and one it does not know is only
required to be storable.
-/

namespace Scaffold

inductive Document where
  | text (s : String)
  | flag (b : Bool)
  | number (n : Int)
  | list (items : List Document)
  | record (members : List (String × Document))

/-- The views of a value in some document format, each absent when the value has another shape. -/
class Readable (ν : Type) where
  members? : ν → Option (List (String × ν))
  items? : ν → Option (List ν)
  /-- The text written for the value, for a reader that expects text. -/
  text? : ν → Option String
  /-- The value if it is text for a reader with no expectation. -/
  ownText? : ν → Option String
  flag? : ν → Option Bool
  number? : ν → Option Int64
  /-- The word of an enumeration. -/
  word? : ν → Option String
  /-- Whether a reader without expectation can hold the value. -/
  storable : ν → Bool

namespace Readable

variable {ν α : Type} [Readable ν]

/-- The value of a member that may occur once; refused when it occurs again. -/
def member? (ms : List (String × ν)) (key : String) : Option (Option ν) :=
  match ms.filter fun m => m.1 == key with
  | [] => some none
  | [m] => some (some m.2)
  | _ => none

def required (ms : List (String × ν)) (key : String) (view : ν → Option α) : Option α := do
  match ← member? ms key with
  | none => none
  | some v => view v

def optional (ms : List (String × ν)) (key : String) (default : α) (view : ν → Option α) :
    Option α := do
  match ← member? ms key with
  | none => some default
  | some v => view v

/-- Whether the members beside the `known` ones can be held. -/
def othersStorable (ms : List (String × ν)) (known : List String) : Bool :=
  ms.all fun m => known.contains m.1 || storable m.2

/-- Every value of a list under the same view. -/
def each (view : ν → Option α) (v : ν) : Option (List α) := do
  (← items? v).mapM view

end Readable

end Scaffold
