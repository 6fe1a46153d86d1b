import Scaffold.Yaml.Basic
import Scaffold.Yaml.Tree

/-!
Aliases give way to the nodes they stand for. A node that takes an anchor gets the number of anchor
names in use so far, and an alias stands for the last node that took the number its name had last.
An alias may stand inside its own node; then, as for any deep nesting, the limit on depth ends the
matter. So does the limit on the number of aliases followed.
-/

namespace Scaffold.Yaml

/-- A tree whose aliases are numbered. -/
inductive Linked where
  | reference (number : Nat)
  | scalar (tag : Option String) (style : Style) (text : String)
  | list (tag : Option String) (items : List Linked)
  | record (tag : Option String) (members : List (Linked × Linked))

/-- What is known of the nodes passed: the number of each anchor name, the place of the last node to
take each number, the nodes by place, and how many marks a list of all parts would have. -/
structure Anchors where
  numbers : List (String × Nat) := []
  places : List (Nat × Nat) := []
  nodes : List (Nat × Linked) := []
  size : Nat := 0

namespace Anchors

/-- Notes that the node about to be read has this anchor. -/
def take (s : Anchors) : Option String → Anchors
  | none => s
  | some name =>
    let n := s.numbers.length
    { s with
      numbers := (name, n) :: s.numbers.filter (·.1 != name)
      places := (n, s.size) :: s.places }

def grow (s : Anchors) : Anchors := { s with size := s.size + 1 }

/-- Keeps a node that has an anchor under its place. -/
def keep (s : Anchors) (anchor : Option String) (place : Nat) (x : Linked) : Anchors :=
  if anchor.isSome then { s with nodes := (place, x) :: s.nodes } else s

def find? (s : Anchors) (n : Nat) : Option Linked := do s.nodes.lookup (← s.places.lookup n)

end Anchors

mutual

/-- Numbers the aliases of a tree in the order of the text; an unknown name is refused. -/
def link (s : Anchors) : Tree → Option (Linked × Anchors)
  | .reference name => do some (.reference (← s.numbers.lookup name), s.grow)
  | .scalar anchor tag style text =>
    let x := Linked.scalar tag style text
    some (x, (s.take anchor).grow.keep anchor s.size x)
  | .list anchor tag xs => do
    let (xs, t) ← linkAll (s.take anchor).grow xs
    let x := Linked.list tag xs
    some (x, t.grow.keep anchor s.size x)
  | .record anchor tag ms => do
    let (ms, t) ← linkMembers (s.take anchor).grow ms
    let x := Linked.record tag ms
    some (x, t.grow.keep anchor s.size x)

def linkAll (s : Anchors) : List Tree → Option (List Linked × Anchors)
  | [] => some ([], s)
  | x :: xs => do
    let (x, s) ← link s x
    let (xs, s) ← linkAll s xs
    some (x :: xs, s)

def linkMembers (s : Anchors) : List (Tree × Tree) → Option (List (Linked × Linked) × Anchors)
  | [] => some ([], s)
  | (k, v) :: ms => do
    let (k, s) ← link s k
    let (v, s) ← link s v
    let (ms, s) ← linkMembers s ms
    some ((k, v) :: ms, s)

end

/-- Replaces the aliases of a node; the state is the number of aliases that may still be followed,
and `room` the number of lists and records that may still be opened. -/
def expand (s : Anchors) : Nat → Linked → StateT Nat Option Yaml
  | room, x => do
    let x ←
      match x with
      | .reference n => do
        match ← get with
        | 0 => failure
        | left + 1 => do
          set left
          (s.find? n : Option Linked)
      | x => pure x
    match x, room with
    | .reference _, _ => failure
    | .scalar tag style text, _ => pure (.scalar tag style text)
    | .list _ _, 0 => failure
    | .record _ _, 0 => failure
    | .list tag xs, room + 1 => do pure (.list tag (← xs.mapM (expand s room)))
    | .record tag ms, room + 1 => do
      pure (.record tag (← ms.mapM fun m => do pure (← expand s room m.1, ← expand s room m.2)))

/-- How many lists and records may be open at once. -/
def nestingLimit : Nat := 128

/-- How many aliases may be followed for each part of the text. -/
def aliasesPerPart : Nat := 100

def Tree.expand? (t : Tree) : Option Yaml := do
  let (x, s) ← link {} t
  let (v, _) ← (expand s nestingLimit x).run (aliasesPerPart * s.size)
  some v

/-- The value of a text that holds one document at most. -/
def parse? (s : String) : Option Yaml := do
  (← Tree.ofTokens? (← tokens? s)).expand?

end Scaffold.Yaml
