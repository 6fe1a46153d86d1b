import Scaffold.Document.Basic
import Scaffold.Number.Digits

/-!
Writing a document as JSON, one item or member to a line and two blanks for each level.
-/

namespace Scaffold.Json

/-- Quote, backslash and controls are escaped, all else stands for itself. -/
def escape (c : Char) : List Char :=
  match c with
  | '"' => ['\\', '"']
  | '\\' => ['\\', '\\']
  | '\x08' => ['\\', 'b']
  | '\x0c' => ['\\', 'f']
  | '\n' => ['\\', 'n']
  | '\r' => ['\\', 'r']
  | '\t' => ['\\', 't']
  | _ =>
    if c.toNat < 32 then '\\' :: 'u' :: Number.hexPadded Number.lowerDigit 4 c.toNat
    else [c]

def quotedChars (s : String) : List Char := '"' :: s.toList.flatMap escape ++ ['"']

/-- A line break and the blanks of a level. -/
def newline (level : Nat) : List Char := '\n' :: List.replicate (2 * level) ' '

mutual

def write (level : Nat) : Document → List Char
  | .text s => quotedChars s
  | .flag b => if b then "true".toList else "false".toList
  | .number n => (toString n).toList
  | .list [] => ['[', ']']
  | .list (x :: xs) =>
    '[' :: newline (level + 1) ++ write (level + 1) x ++ writeItems (level + 1) xs ++
      newline level ++ [']']
  | .record [] => ['{', '}']
  | .record (m :: ms) =>
    '{' :: newline (level + 1) ++ writeMember (level + 1) m ++ writeMembers (level + 1) ms ++
      newline level ++ ['}']

def writeItems (level : Nat) : List Document → List Char
  | [] => []
  | x :: xs => ',' :: newline level ++ write level x ++ writeItems level xs

def writeMember (level : Nat) : String × Document → List Char
  | (key, x) => quotedChars key ++ [':', ' '] ++ write level x

def writeMembers (level : Nat) : List (String × Document) → List Char
  | [] => []
  | m :: ms => ',' :: newline level ++ writeMember level m ++ writeMembers level ms

end

end Scaffold.Json

namespace Scaffold.Document

def toJson (d : Document) : String := String.ofList (Json.write 0 d)

end Scaffold.Document
