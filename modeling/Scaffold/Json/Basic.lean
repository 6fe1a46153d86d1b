import Scaffold.Document.Basic
import Scaffold.Number.Limits

/-!
Values of the JSON format. A number is whole when it is written without fraction and exponent and
fits 64 bits, signed or not; minus zero and all other numbers keep only their spelling.
-/

namespace Scaffold

inductive Json where
  | null
  | flag (b : Bool)
  | whole (n : Int)
  | decimal (spelling : String)
  | text (s : String)
  | list (items : List Json)
  | record (members : List (String × Json))

namespace Json

def members? : Json → Option (List (String × Json))
  | record ms => some ms
  | _ => none

def items? : Json → Option (List Json)
  | list xs => some xs
  | _ => none

def text? : Json → Option String
  | text s => some s
  | _ => none

def flag? : Json → Option Bool
  | flag b => some b
  | _ => none

def number? : Json → Option Int64
  | whole n => Number.signed? n
  | _ => none

/-- A word is written as text, or as the only member of a record with nothing in it. -/
def word? : Json → Option String
  | text s => some s
  | record [(key, null)] => some key
  | _ => none

instance : Readable Json where
  members? := members?
  items? := items?
  text? := text?
  ownText? := text?
  flag? := flag?
  number? := number?
  word? := word?
  storable _ := true

end Json

end Scaffold
